import WarehouseSync.Library.Transition
import WarehouseSync.Load.IcebergWriter
import Mathlib.Data.List.Perm.Basic

namespace WarehouseSync
namespace IcebergWriter

open CopyWorker Transition

/-!
# Concurrent commits to one lake table

`commit_files_with_retry` loads the table and adds its files in a second step,
which fails when the table has changed in between; then it loads the table again,
up to a number of attempts.  The metadata of the table has a version that every
commit increases.  However many calls interleave, the table holds its first
files and then, block by block, the files of the calls that have returned.
-/

universe u

variable {φ : Type u}

/-- The table as a commit sees it.  The version stands for the metadata location
that the catalog compares, so that a commit notices any other commit since it loaded
the table. -/
structure Metadata (φ : Type u) where
  files : List φ
  version : Nat
deriving DecidableEq

/-- Where a call is in its loop.  Loading and adding are two steps, and other
commits come between them. -/
inductive Position where
  | called
  | trying (attempt : Nat)
  | loaded (attempt version : Nat)
  | returned
  | raised
deriving DecidableEq, Repr

/-- A call of `commit_files_with_retry`, with its argument and where it is.  Several
calls are under way at once, one for each worker. -/
structure Call (φ : Type u) where
  files : List φ
  maxAttempts : Int
  position : Position
deriving DecidableEq

structure Commits (φ : Type u) where
  table : Metadata φ
  calls : List (Call φ)
deriving DecidableEq

/-- The loop enters the attempt if it is in `range(max_attempts)`, and gives up
otherwise.  The number of attempts may be zero or negative, and then the loop is
never entered. -/
def Call.attempt (call : Call φ) (attempt : Nat) : Call φ :=
  { call with position := if (attempt : Int) < call.maxAttempts then .trying attempt else .raised }

inductive CallEvent where
  | enter
  | load
  | add
deriving DecidableEq, Repr

/-- One step of a call.  Without files it returns before it loads anything.  A
commit on an old version changes nothing and starts the next attempt, as the
optimistic check of the catalog has it. -/
def stepCall (table : Metadata φ) (call : Call φ) : CallEvent -> Option (Metadata φ × Call φ)
  | .enter =>
      match call.position with
      | .called =>
          if call.files.isEmpty then some (table, { call with position := .returned })
          else some (table, call.attempt 0)
      | _ => none
  | .load =>
      match call.position with
      | .trying attempt => some (table, { call with position := .loaded attempt table.version })
      | _ => none
  | .add =>
      match call.position with
      | .loaded attempt version =>
          if version = table.version then
            some ({ files := table.files ++ call.files, version := table.version + 1 },
              { call with position := .returned })
          else some (table, call.attempt (attempt + 1))
      | _ => none

inductive CommitEvent (φ : Type u) where
  /-- A worker calls the function. -/
  | begin (files : List φ) (maxAttempts : Int)
  /-- A commit of something else than files, such as a schema change. -/
  | touch
  | call (index : Nat) (event : CallEvent)
deriving DecidableEq, Repr

/-- One step of all calls together.  Which call goes on is not said, so that every
interleaving is a list of events. -/
def stepCommits (world : Commits φ) : CommitEvent φ -> Option (Commits φ)
  | .begin files maxAttempts =>
      some { world with
        calls := world.calls ++ [{ files := files, maxAttempts := maxAttempts, position := .called }] }
  | .touch => some { world with table := { world.table with version := world.table.version + 1 } }
  | .call index event =>
      world.calls[index]?.bind (fun call =>
        (stepCall world.table call event).map (fun next =>
          { table := next.1, calls := world.calls.set index next.2 }))

def Call.hasReturned (call : Call φ) : Bool :=
  decide (call.position = .returned)

/-- The calls that have returned, in the order of their commits, account for
everything that the table has beyond its first files.  The order is that of the
commits and not of the calls. -/
def Accounts (first : List φ) (world : Commits φ) : Prop :=
  Exists fun committed : List (Call φ) =>
    committed.Perm (world.calls.filter Call.hasReturned) ∧
      world.table.files = first ++ committed.flatMap (fun call => call.files)

/-- A step of a call either returns and appends its files, or changes no file
and does not return. -/
theorem stepCall_cases {table : Metadata φ} {call : Call φ} {event : CallEvent}
    {next : Metadata φ × Call φ} (taken : stepCall table call event = some next) :
    call.hasReturned = false ∧ next.2.files = call.files ∧
      ((next.2.hasReturned = true ∧ next.1.files = table.files ++ call.files) ∨
        (next.2.hasReturned = false ∧ next.1.files = table.files)) := by
  have unfinished (attempt : Nat) : (call.attempt attempt).hasReturned = false := by
    unfold Call.attempt Call.hasReturned
    split
    · rfl
    · rfl
  cases event with
  | enter =>
      simp only [stepCall] at taken
      split at taken
      · rename_i called
        refine ⟨by rw [Call.hasReturned, called]; rfl, ?_⟩
        split at taken
        · rename_i empty
          cases taken
          refine ⟨rfl, Or.inl ⟨rfl, ?_⟩⟩
          rw [List.isEmpty_iff.mp empty, List.append_nil]
        · cases taken
          exact ⟨rfl, Or.inr ⟨unfinished 0, rfl⟩⟩
      · cases taken
  | load =>
      simp only [stepCall] at taken
      split at taken
      · rename_i attempt trying
        cases taken
        exact ⟨by rw [Call.hasReturned, trying]; rfl, rfl, Or.inr ⟨rfl, rfl⟩⟩
      · cases taken
  | add =>
      simp only [stepCall] at taken
      split at taken
      · rename_i attempt version loaded
        refine ⟨by rw [Call.hasReturned, loaded]; rfl, ?_⟩
        split at taken
        · cases taken
          exact ⟨rfl, Or.inl ⟨rfl, rfl⟩⟩
        · cases taken
          exact ⟨rfl, Or.inr ⟨unfinished (attempt + 1), rfl⟩⟩
      · cases taken

/-- Replacing an element that does not satisfy the test. -/
theorem filter_set_perm {test : Call φ -> Bool} {calls : List (Call φ)} {index : Nat} {call : Call φ}
    (found : calls[index]? = some call) (failed : test call = false) (next : Call φ) :
    ((calls.set index next).filter test).Perm
      (if test next = true then next :: calls.filter test else calls.filter test) := by
  rcases List.getElem?_eq_some_iff.mp found with ⟨inside, same⟩
  have others : ((calls.eraseIdx index).filter test).Perm (calls.filter test) := by
    have whole := (List.getElem_cons_eraseIdx_perm inside).filter test
    rw [same, List.filter_cons_of_neg (by rw [failed]; exact Bool.false_ne_true)] at whole
    exact whole
  have replaced := (List.set_perm_cons_eraseIdx inside next).filter test
  by_cases passes : test next = true
  · rw [if_pos passes]
    rw [List.filter_cons_of_pos passes] at replaced
    exact replaced.trans (others.cons next)
  · rw [if_neg passes]
    rw [List.filter_cons_of_neg passes] at replaced
    exact replaced.trans others

theorem Accounts.step {first : List φ} {world next : Commits φ} {event : CommitEvent φ}
    (accounts : Accounts first world) (taken : stepCommits world event = some next) :
    Accounts first next := by
  rcases accounts with ⟨committed, listed, files⟩
  cases event with
  | begin uris maxAttempts =>
      cases taken
      refine ⟨committed, ?_, files⟩
      rw [List.filter_append]
      exact listed.trans (by simp [Call.hasReturned])
  | touch =>
      cases taken
      exact ⟨committed, listed, files⟩
  | call index event =>
      rcases Option.bind_eq_some_iff.mp taken with ⟨call, found, moved⟩
      rcases Option.map_eq_some_iff.mp moved with ⟨moves, stepped, rfl⟩
      rcases stepCall_cases stepped with ⟨running, same, ⟨returned, appended⟩ | ⟨stays, unchanged⟩⟩
      · refine ⟨committed ++ [moves.2], ?_, ?_⟩
        · have replaced := filter_set_perm found running moves.2
          rw [if_pos returned] at replaced
          exact (List.perm_append_singleton _ _).trans ((listed.cons _).trans replaced.symm)
        · rw [appended, files, List.flatMap_append, List.flatMap_singleton, same, List.append_assoc]
      · refine ⟨committed, ?_, unchanged.trans files⟩
        have replaced := filter_set_perm found running moves.2
        rw [if_neg (by rw [stays]; exact Bool.false_ne_true)] at replaced
        exact listed.trans replaced.symm

/-! ## Any number of calls -/

/-- Whatever the interleaving, the table holds its first files and the files of
exactly the calls that have returned, each of them once.  A call that gives up has
left nothing behind. -/
theorem concurrent_commits_exact (table : Metadata φ) (events : List (CommitEvent φ))
    (last : Commits φ)
    (reached : run stepCommits { table := table, calls := [] } events = some last) :
    Exists fun committed : List (Call φ) =>
      committed.Perm (last.calls.filter Call.hasReturned) ∧
        last.table.files = table.files ++ committed.flatMap (fun call => call.files) := by
  have start : Accounts table.files { table := table, calls := [] } :=
    ⟨[], List.Perm.refl _, (List.append_nil _).symm⟩
  exact run_invariant_always (fun _ _ _ accounts taken => Accounts.step accounts taken) start reached

/-- One call loses the race, gives up and leaves nothing behind; the other's
file is added once. -/
theorem lost_race_adds_nothing :
    let last : Commits Nat :=
      { table := { files := [7, 8], version := 4 }
        calls := [{ files := [8], maxAttempts := 2, position := .returned },
          { files := [9], maxAttempts := 1, position := .raised }] }
    run stepCommits { table := { files := [7], version := 3 }, calls := [] }
        [.begin [8] 2, .begin [9] 1, .call 0 .enter, .call 1 .enter, .call 0 .load, .call 1 .load,
          .call 0 .add, .call 1 .add] = some last ∧
      Exists fun committed : List (Call Nat) =>
        committed.Perm (last.calls.filter Call.hasReturned) ∧
          last.table.files = [7] ++ committed.flatMap (fun call => call.files) := by
  intro last
  have reached : run stepCommits { table := { files := [7], version := 3 }, calls := [] }
      [.begin [8] 2, .begin [9] 1, .call 0 .enter, .call 1 .enter, .call 0 .load, .call 1 .load,
        .call 0 .add, .call 1 .add] = some last := by decide
  exact ⟨reached, concurrent_commits_exact { files := [7], version := 3 } _ last reached⟩

theorem stepCommits_call {world : Commits φ} {index : Nat} {call : Call φ} {event : CallEvent}
    {next : Metadata φ × Call φ} (found : world.calls[index]? = some call)
    (stepped : stepCall world.table call event = some next) :
    stepCommits world (.call index event) =
      some { table := next.1, calls := world.calls.set index next.2 } := by
  change world.calls[index]?.bind _ = _
  rw [found, Option.bind_some, stepped]
  rfl

/-- The next step of a call that has just taken one. -/
theorem stepCommits_set {calls : List (Call φ)} {index : Nat} (inside : index < calls.length)
    {table : Metadata φ} {call : Call φ} {event : CallEvent} {next : Metadata φ × Call φ}
    (stepped : stepCall table call event = some next) :
    stepCommits { table := table, calls := calls.set index call } (.call index event) =
      some { table := next.1, calls := calls.set index next.2 } := by
  have placed : (calls.set index call)[index]? = some call := List.getElem?_set_self inside
  change (calls.set index call)[index]?.bind _ = _
  rw [placed, Option.bind_some, stepped, Option.map_some, List.set_set]

/-- Such a call returns in its first attempt, and where `add_files` accepts its
files it leaves the rows that `commitFilesWithRetry` leaves. -/
theorem commit_alone {ρ : Type u} {world : Commits (DataFile ρ)} {index : Nat} {call : Call (DataFile ρ)}
    (found : world.calls[index]? = some call) (called : call.position = .called)
    (attempts : 0 < call.maxAttempts) {lake : LakeTable ρ} {compatible : Bool} {catalog : Option (LakeTable ρ)}
    (holds : fileRows world.table.files = lake.rows)
    (accepted : commitFilesWithRetry compatible call.files (some lake) = some catalog) :
    Exists fun events : List (CommitEvent (DataFile ρ)) => Exists fun last : Commits (DataFile ρ) =>
      run stepCommits world events = some last ∧
        last.calls = world.calls.set index { call with position := .returned } ∧
          catalog.map (fun after => after.rows) = some (fileRows last.table.files) := by
  have inside : index < world.calls.length := (List.getElem?_eq_some_iff.mp found).1
  rcases commitFilesWithRetry_eq_some accepted with ⟨after, rfl, rows, _⟩
  rw [Option.map_some, rows, ← holds]
  by_cases empty : call.files = []
  · have entered : stepCall world.table call .enter =
        some (world.table, { call with position := .returned }) := by
      simp only [stepCall, called, empty, List.isEmpty_nil, if_true]
    refine ⟨[.call index .enter], _,
      run_cons_eq_some.mpr ⟨_, stepCommits_call found entered, rfl⟩, rfl, ?_⟩
    rw [empty]
    simp [fileRows]
  · let trying : Call (DataFile ρ) := { call with position := .trying 0 }
    let loaded : Call (DataFile ρ) := { call with position := .loaded 0 world.table.version }
    let returned : Call (DataFile ρ) := { call with position := .returned }
    let added : Metadata (DataFile ρ) :=
      { files := world.table.files ++ call.files, version := world.table.version + 1 }
    have entered : stepCall world.table call .enter = some (world.table, trying) := by
      have some : call.files.isEmpty = false := by simpa using empty
      simp only [stepCall, called, some, Bool.false_eq_true, if_false, Call.attempt]
      rw [if_pos (by exact attempts)]
    have read : stepCall world.table trying .load = some (world.table, loaded) := rfl
    have committed : stepCall world.table loaded .add = some (added, returned) := if_pos rfl
    refine ⟨[.call index .enter, .call index .load, .call index .add], _,
      run_cons_eq_some.mpr ⟨_, stepCommits_call found entered,
        run_cons_eq_some.mpr ⟨_, stepCommits_set inside read,
          run_cons_eq_some.mpr ⟨_, stepCommits_set inside committed, rfl⟩⟩⟩, rfl, ?_⟩
    simp [fileRows, added]

end IcebergWriter
end WarehouseSync

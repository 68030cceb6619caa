import WarehouseSync.Gateway.ConfigStore
import Mathlib.Data.List.Nodup
import Mathlib.Data.List.Perm.Basic

namespace WarehouseSync
namespace RunDeletion

open ConfigStore

/-!
# Deleting the runs of a connection (`gateway/dagster_client.py`)

`delete_runs` asks for the hundred newest runs that are tagged with the
connection, deletes each of them, and asks again.  It stops when it is told of
none, when every request of a round has raised, or after two hundred rounds.  An
answer to the query that is not of type `Runs` reads as no runs, and a query that
fails is not caught.  What Dagster answers to a deletion is not looked at: a
refusal counts as a deletion, and a deletion whose answer is lost does not.
-/

/-- What becomes of the query of `recent_runs`.  Dagster may answer with something
else than runs, a `PythonError` for instance, and the request itself may fail. -/
inductive Listing where
  | runs
  | other
  | raised
deriving DecidableEq, Repr

/-- What becomes of `deletePipelineRun`.  Whether Dagster deletes the run and
whether the request returns are two things: a request can time out after Dagster
has carried it out. -/
inductive Answer where
  | deleted
  | refused
  | raised
  | lost
deriving DecidableEq, Repr

def Answer.performed : Answer -> Bool
  | .deleted => true
  | .refused => false
  | .raised => false
  | .lost => true

def Answer.returned : Answer -> Bool
  | .deleted => true
  | .refused => true
  | .raised => false
  | .lost => false

/-- What `delete_runs` returns, unless a listing raises, and the runs it leaves. -/
structure Result where
  returned : Option Nat
  runs : List LaunchedRun
deriving DecidableEq, Repr

section Loop

variable (connectionId : Int) (listing : Nat -> Listing) (answer : LaunchedRun -> Answer)

/-- The newest runs of the connection, which is the order in which Dagster lists
them. -/
def newest (limit : Nat) (runs : List LaunchedRun) : List LaunchedRun :=
  (runs.filter (fun run => decide (run.connectionId = connectionId))).reverse.take limit

/-- `recent_runs`; there is no value when it raises. -/
def recentRuns (limit : Nat) (runs : List LaunchedRun) : Listing -> Option (List LaunchedRun)
  | .runs => some (newest connectionId limit runs)
  | .other => some []
  | .raised => none

/-- The runs after the deletions of one round. -/
def remove (listed runs : List LaunchedRun) : List LaunchedRun :=
  runs.filter (fun run => !(listed.contains run && (answer run).performed))

/-- The loop with so many rounds left, which also number the listings.  Only the
requests that returned are counted, and only they keep the loop going, whatever
Dagster has answered to them. -/
def rounds : Nat -> Nat -> List LaunchedRun -> Result
  | 0, deleted, runs => { returned := some deleted, runs := runs }
  | left + 1, deleted, runs =>
      match recentRuns connectionId 100 runs (listing left) with
      | none => { returned := none, runs := runs }
      | some listed =>
          let answered := listed.filter (fun run => (answer run).returned)
          if listed = [] then { returned := some deleted, runs := runs }
          else if answered = [] then { returned := some deleted, runs := remove answer listed runs }
          else rounds left (deleted + answered.length) (remove answer listed runs)

def deleteRuns (runs : List LaunchedRun) : Result :=
  rounds connectionId listing answer 200 0 runs

/-- The runs of the connection that Dagster deletes when it is asked to. -/
def deletable (runs : List LaunchedRun) : List LaunchedRun :=
  runs.filter (fun run => decide (run.connectionId = connectionId) && (answer run).performed)

/-- The runs of the connection that stay.  They are listed again in every round, in
front of older ones, so that a hundred of them hide all the others. -/
def stuck (runs : List LaunchedRun) : List LaunchedRun :=
  runs.filter (fun run => decide (run.connectionId = connectionId) && !(answer run).performed)

end Loop

variable {connectionId : Int} {listing : Nat -> Listing} {answer : LaunchedRun -> Answer} {runs : List LaunchedRun}

/-! ## One round -/

/-- The listed runs that are deleted. -/
def taken (answer : LaunchedRun -> Answer) (listed : List LaunchedRun) : List LaunchedRun :=
  listed.filter (fun run => (answer run).performed)

theorem remove_eq (listed runs : List LaunchedRun) :
    remove answer listed runs = runs.filter (fun run => decide (run ∉ taken answer listed)) := by
  refine List.filter_congr (fun run _ => ?_)
  simp [taken, List.mem_filter, Bool.not_and]

theorem mem_newest {limit : Nat} {run : LaunchedRun} (listed : run ∈ newest connectionId limit runs) :
    run ∈ runs ∧ run.connectionId = connectionId := by
  have member := List.mem_filter.mp (List.mem_reverse.mp (List.mem_of_mem_take listed))
  exact ⟨member.1, of_decide_eq_true member.2⟩

theorem nodup_newest (distinct : runs.Nodup) (limit : Nat) : (newest connectionId limit runs).Nodup :=
  (List.nodup_reverse.mpr (distinct.filter _)).sublist (List.take_sublist _ _)

theorem length_filter_notMem {whole part : List LaunchedRun} (distinct : whole.Nodup) (once : part.Nodup)
    (inside : part ⊆ whole) :
    (whole.filter (fun run => decide (run ∉ part))).length + part.length = whole.length := by
  have same : (whole.filter (fun run => decide (run ∈ part))).Perm part := by
    refine (List.perm_ext_iff_of_nodup (distinct.filter _) once).mpr (fun run => ?_)
    rw [List.mem_filter, decide_eq_true_eq]
    exact ⟨fun both => both.2, fun member => ⟨inside member, member⟩⟩
  have split := @List.length_eq_length_filter_add _ whole (fun run => decide (run ∈ part))
  simp only [← decide_not] at split
  rw [← same.length_eq]
  omega

theorem taken_subset (limit : Nat) :
    taken answer (newest connectionId limit runs) ⊆ deletable connectionId answer runs := by
  intro run member
  rcases List.mem_filter.mp member with ⟨listed, deleted⟩
  rcases mem_newest listed with ⟨present, own⟩
  refine List.mem_filter.mpr ⟨present, ?_⟩
  rw [deleted, decide_eq_true own]
  rfl

theorem deletable_remove (listed : List LaunchedRun) : deletable connectionId answer (remove answer listed runs) =
    (deletable connectionId answer runs).filter (fun run => decide (run ∉ taken answer listed)) := by
  unfold deletable
  rw [remove_eq, List.filter_filter, List.filter_filter]
  exact List.filter_congr (fun run _ => Bool.and_comm _ _)

theorem stuck_remove (listed : List LaunchedRun) :
    stuck connectionId answer (remove answer listed runs) = stuck connectionId answer runs := by
  unfold stuck remove
  rw [List.filter_filter]
  refine List.filter_congr (fun run _ => ?_)
  cases (answer run).performed with
  | true => simp
  | false => simp

theorem length_newest (limit : Nat) : (newest connectionId limit runs).length =
    min limit ((deletable connectionId answer runs).length + (stuck connectionId answer runs).length) := by
  have split := @List.length_eq_length_filter_add _
    (runs.filter (fun run => decide (run.connectionId = connectionId))) (fun run => (answer run).performed)
  rw [List.filter_filter, List.filter_filter] at split
  have parts : (runs.filter (fun run => decide (run.connectionId = connectionId))).length =
      (deletable connectionId answer runs).length + (stuck connectionId answer runs).length := by
    rw [split]
    unfold deletable stuck
    simp only [Bool.and_comm]
  unfold newest
  rw [List.length_take, List.length_reverse, parts]

/-- Every listed run is deleted, or it is one of those that stay. -/
theorem length_taken (limit : Nat) : (newest connectionId limit runs).length ≤
    (taken answer (newest connectionId limit runs)).length + (stuck connectionId answer runs).length := by
  have split := @List.length_eq_length_filter_add _ (newest connectionId limit runs)
    (fun run => (answer run).performed)
  have others : ((newest connectionId limit runs).filter (fun run => !(answer run).performed)).length ≤
      (stuck connectionId answer runs).length := by
    have part := ((List.take_sublist limit
      (runs.filter (fun run => decide (run.connectionId = connectionId))).reverse).filter
        (fun run => !(answer run).performed)).length_le
    rw [List.filter_reverse, List.length_reverse, List.filter_filter] at part
    unfold stuck newest
    simpa only [Bool.and_comm] using part
  unfold taken
  omega

/-- A round makes progress as long as fewer than a hundred runs are stuck. -/
theorem length_deletable_remove (distinct : runs.Nodup) :
    (deletable connectionId answer (remove answer (newest connectionId 100 runs) runs)).length +
        min (100 - (stuck connectionId answer runs).length) (deletable connectionId answer runs).length ≤
      (deletable connectionId answer runs).length := by
  have removed : ((deletable connectionId answer runs).filter (fun run =>
      decide (run ∉ taken answer (newest connectionId 100 runs)))).length +
        (taken answer (newest connectionId 100 runs)).length = (deletable connectionId answer runs).length :=
    length_filter_notMem (distinct.filter _) ((nodup_newest distinct 100).filter _) (taken_subset 100)
  have listed : (newest connectionId 100 runs).length =
      min 100 ((deletable connectionId answer runs).length + (stuck connectionId answer runs).length) :=
    length_newest 100
  have most : (newest connectionId 100 runs).length ≤
      (taken answer (newest connectionId 100 runs)).length + (stuck connectionId answer runs).length :=
    length_taken 100
  rw [deletable_remove]
  omega

/-- What Dagster carries out is answered, for the runs of the connection.  A
deletion whose answer is lost would be done and not counted. -/
def Heard (connectionId : Int) (answer : LaunchedRun -> Answer) (runs : List LaunchedRun) : Prop :=
  forall run, run ∈ runs -> run.connectionId = connectionId -> answer run ≠ .lost

theorem Heard.filter (heard : Heard connectionId answer runs) (keep : LaunchedRun -> Bool) :
    Heard connectionId answer (runs.filter keep) :=
  fun run member => heard run (List.mem_filter.mp member).1

/-- A round in which everything raised had nothing to delete: no answer is lost, and
at least one listed run is not stuck if there is anything to delete. -/
theorem deletable_eq_nil (heard : Heard connectionId answer runs)
    (few : (stuck connectionId answer runs).length < 100)
    (silent : (newest connectionId 100 runs).filter (fun run => (answer run).returned) = []) :
    deletable connectionId answer runs = [] := by
  have none : taken answer (newest connectionId 100 runs) = [] := by
    refine List.filter_eq_nil_iff.mpr (fun run member performed => ?_)
    rcases mem_newest member with ⟨present, own⟩
    have answered := heard run present own
    have unanswered := List.filter_eq_nil_iff.mp silent run member
    cases given : answer run with
    | deleted => exact unanswered (by rw [given]; rfl)
    | refused => rw [given] at performed; cases performed
    | raised => rw [given] at performed; cases performed
    | lost => exact answered given
  have listed : (newest connectionId 100 runs).length =
      min 100 ((deletable connectionId answer runs).length + (stuck connectionId answer runs).length) :=
    length_newest 100
  have most : (newest connectionId 100 runs).length ≤
      (taken answer (newest connectionId 100 runs)).length + (stuck connectionId answer runs).length :=
    length_taken 100
  rw [none, List.length_nil] at most
  refine List.eq_nil_of_length_eq_zero ?_
  omega

/-- The runs that stay when everything is deleted that can be. -/
def kept (connectionId : Int) (answer : LaunchedRun -> Answer) (runs : List LaunchedRun) : List LaunchedRun :=
  runs.filter (fun run => !(decide (run.connectionId = connectionId) && (answer run).performed))

theorem kept_of_nothing (nothing : deletable connectionId answer runs = []) :
    kept connectionId answer runs = runs := by
  refine List.filter_eq_self.mpr (fun run member => ?_)
  have other := List.filter_eq_nil_iff.mp nothing run member
  rw [Bool.not_eq_true']
  exact Bool.eq_false_iff.mpr other

theorem kept_remove (limit : Nat) : kept connectionId answer (remove answer (newest connectionId limit runs) runs) =
    kept connectionId answer runs := by
  unfold kept
  rw [remove_eq, List.filter_filter]
  refine List.filter_congr (fun run _ => ?_)
  cases doomed : (decide (run.connectionId = connectionId) && (answer run).performed) with
  | true => rfl
  | false =>
      have spared : run ∉ taken answer (newest connectionId limit runs) := by
        intro member
        have own := (List.mem_filter.mp (taken_subset limit member)).2
        rw [doomed] at own
        cases own
      simp [spared]

/-- What a listing that returns shows: the newest runs, or none. -/
theorem recentRuns_cases {limit : Nat} {outcome : Listing} {listed : List LaunchedRun}
    (returned : recentRuns connectionId limit runs outcome = some listed) :
    listed = newest connectionId limit runs ∨ listed = [] := by
  cases outcome with
  | runs => exact Or.inl (Option.some.inj returned).symm
  | other => exact Or.inr (Option.some.inj returned).symm
  | raised => cases returned

/-- Whatever the listings and the deletions come to, the rounds spare the runs of
other connections and those that Dagster does not delete. -/
theorem kept_sublist_rounds (listing : Nat -> Listing) (left deleted : Nat) (runs : List LaunchedRun) :
    (kept connectionId answer runs).Sublist (rounds connectionId listing answer left deleted runs).runs := by
  induction left generalizing deleted runs with
  | zero => exact List.filter_sublist
  | succ left ih =>
      simp only [rounds]
      split
      · exact List.filter_sublist
      · rename_i listed returned
        rcases recentRuns_cases returned with rfl | rfl
        · have afterRound := @kept_remove connectionId answer runs 100
          split
          · exact List.filter_sublist
          · split
            · rw [← afterRound]
              exact List.filter_sublist
            · rw [← afterRound]
              exact ih _ _
        · exact List.filter_sublist

/-- What the rounds leave, if there are enough of them. -/
theorem runs_rounds {left deleted : Nat} (listed : forall round, listing round = .runs) (distinct : runs.Nodup)
    (heard : Heard connectionId answer runs) (few : (stuck connectionId answer runs).length < 100)
    (enough : (deletable connectionId answer runs).length ≤ left * (100 - (stuck connectionId answer runs).length)) :
    (rounds connectionId listing answer left deleted runs).runs = kept connectionId answer runs := by
  induction left generalizing deleted runs with
  | zero =>
      rw [Nat.zero_mul, Nat.le_zero_eq, List.length_eq_zero_iff] at enough
      exact (kept_of_nothing enough).symm
  | succ left ih =>
      have progress := @length_deletable_remove connectionId answer runs distinct
      have distinctAfter : (remove answer (newest connectionId 100 runs) runs).Nodup := distinct.filter _
      simp only [rounds, recentRuns, listed]
      split
      · rename_i none
        have nothing := deletable_eq_nil heard few (congrArg (List.filter _) none)
        exact (kept_of_nothing nothing).symm
      · split
        · rename_i silent
          have nothing := deletable_eq_nil heard few silent
          have nothingAfter :
              deletable connectionId answer (remove answer (newest connectionId 100 runs) runs) = [] := by
            rw [deletable_remove, nothing]
            rfl
          rw [← kept_remove 100, kept_of_nothing nothingAfter]
        · rw [ih distinctAfter (heard.filter _), kept_remove]
          · rw [stuck_remove]
            exact few
          · rw [stuck_remove]
            rw [Nat.succ_mul] at enough
            omega

/-- When Dagster deletes or raises, every deletion is counted once. -/
theorem returned_rounds {left deleted : Nat} (listed : forall round, listing round = .runs) (distinct : runs.Nodup)
    (heard : Heard connectionId answer runs)
    (granted : forall run, run ∈ runs -> run.connectionId = connectionId -> answer run ≠ .refused) :
    Exists fun counted : Nat => (rounds connectionId listing answer left deleted runs).returned = some counted ∧
      counted + (rounds connectionId listing answer left deleted runs).runs.length = deleted + runs.length := by
  induction left generalizing deleted runs with
  | zero => exact ⟨deleted, rfl, rfl⟩
  | succ left ih =>
      have counted : (newest connectionId 100 runs).filter (fun run => (answer run).returned) =
          taken answer (newest connectionId 100 runs) := by
        refine List.filter_congr (fun run member => ?_)
        rcases mem_newest member with ⟨present, own⟩
        cases given : answer run with
        | deleted => rfl
        | refused => exact absurd given (granted run present own)
        | raised => rfl
        | lost => exact absurd given (heard run present own)
      have split : (remove answer (newest connectionId 100 runs) runs).length +
          (taken answer (newest connectionId 100 runs)).length = runs.length := by
        rw [remove_eq]
        refine length_filter_notMem distinct ((nodup_newest distinct 100).filter _) (fun run member => ?_)
        exact (mem_newest (List.mem_filter.mp member).1).1
      have distinctAfter : (remove answer (newest connectionId 100 runs) runs).Nodup := distinct.filter _
      simp only [rounds, recentRuns, listed, counted]
      split
      · exact ⟨deleted, rfl, rfl⟩
      · split
        · rename_i silent
          rw [silent, List.length_nil] at split
          refine ⟨deleted, rfl, ?_⟩
          show deleted + (remove answer (newest connectionId 100 runs) runs).length = deleted + runs.length
          omega
        · rcases ih distinctAfter (heard.filter _)
              (fun run member => granted run (List.mem_filter.mp member).1) with ⟨total, returned, sum⟩
          exact ⟨total, returned, by omega⟩

/-- A deletion that Dagster refuses is counted in every round. -/
theorem refused_rounds {left deleted : Nat} (listed : forall round, listing round = .runs)
    (refused : forall run, run ∈ runs -> run.connectionId = connectionId -> answer run = .refused) :
    rounds connectionId listing answer left deleted runs =
      { returned := some (deleted + left * (newest connectionId 100 runs).length), runs := runs } := by
  have untouched : remove answer (newest connectionId 100 runs) runs = runs := by
    refine List.filter_eq_self.mpr (fun run member => ?_)
    rw [Bool.not_eq_true', Bool.and_eq_false_iff]
    by_cases shown : run ∈ newest connectionId 100 runs
    · right
      rw [refused run member (mem_newest shown).2]
      rfl
    · left
      simpa using shown
  have counted : (newest connectionId 100 runs).filter (fun run => (answer run).returned) =
      newest connectionId 100 runs := by
    refine List.filter_eq_self.mpr (fun run shown => ?_)
    rcases mem_newest shown with ⟨present, own⟩
    rw [refused run present own]
    rfl
  induction left generalizing deleted with
  | zero => simp [rounds]
  | succ left ih =>
      simp only [rounds, recentRuns, listed, counted, untouched]
      split
      · rename_i none
        rw [none, List.length_nil, Nat.mul_zero, Nat.add_zero]
      · rw [ih, Nat.succ_mul, Nat.add_assoc, Nat.add_comm (_ * _)]

theorem kept_eq (store : Store) (distinct : (store.runs.map LaunchedRun.runId).Nodup) :
    kept connectionId answer store.runs =
      (store.deleteRuns connectionId ((stuck connectionId answer store.runs).map LaunchedRun.runId)).runs := by
  refine List.filter_congr (fun run member => ?_)
  by_cases own : run.connectionId = connectionId
  · have stays : ((stuck connectionId answer store.runs).map LaunchedRun.runId).contains run.runId =
        !(answer run).performed := by
      rw [List.contains_eq_mem, Bool.eq_iff_iff, decide_eq_true_iff, List.mem_map]
      constructor
      · rintro ⟨other, shown, sameId⟩
        rcases List.mem_filter.mp shown with ⟨present, both⟩
        rw [List.inj_on_of_nodup_map distinct present member sameId, Bool.and_eq_true] at both
        exact both.2
      · intro notDeleted
        refine ⟨run, List.mem_filter.mpr ⟨member, ?_⟩, rfl⟩
        rw [decide_eq_true own, notDeleted]
        rfl
    rw [stays, own]
    simp
  · simp [own]

theorem length_kept : (deletable connectionId answer runs).length + (kept connectionId answer runs).length =
    runs.length := by
  have split := @List.length_eq_length_filter_add _ runs
    (fun run => decide (run.connectionId = connectionId) && (answer run).performed)
  exact split.symm

/-- When every listing answers with runs, no answer to a deletion is lost and fewer
than a hundred runs of the connection stay, `delete_runs` leaves what the wipe of
the store leaves: these runs, and every run of another connection.  When no
deletion is refused either, it returns how many there were to delete. -/
theorem delete_runs_refined (store : Store) (connectionId : Int) (listing : Nat -> Listing)
    (answer : LaunchedRun -> Answer) (listed : forall round, listing round = .runs)
    (distinct : (store.runs.map LaunchedRun.runId).Nodup) (heard : Heard connectionId answer store.runs)
    (few : (stuck connectionId answer store.runs).length < 100)
    (bounded : (deletable connectionId answer store.runs).length ≤
      200 * (100 - (stuck connectionId answer store.runs).length)) :
    (deleteRuns connectionId listing answer store.runs).runs =
        (store.deleteRuns connectionId ((stuck connectionId answer store.runs).map LaunchedRun.runId)).runs ∧
      ((forall run, run ∈ store.runs -> run.connectionId = connectionId -> answer run ≠ .refused) ->
        (deleteRuns connectionId listing answer store.runs).returned =
          some (deletable connectionId answer store.runs).length) := by
  have once : store.runs.Nodup := distinct.of_map LaunchedRun.runId
  have left : (deleteRuns connectionId listing answer store.runs).runs = kept connectionId answer store.runs :=
    runs_rounds listed once heard few bounded
  refine ⟨left.trans (kept_eq store distinct), fun granted => ?_⟩
  have counted : Exists fun counted : Nat =>
      (deleteRuns connectionId listing answer store.runs).returned = some counted ∧
        counted + (deleteRuns connectionId listing answer store.runs).runs.length = 0 + store.runs.length :=
    returned_rounds listed once heard granted
  rcases counted with ⟨counted, returned, sum⟩
  have parts := @length_kept connectionId answer store.runs
  rw [returned]
  rw [left] at sum
  congr 1
  omega

def launched (runs : List LaunchedRun) : Store :=
  { connections := [], nextConnectionId := 1, selection := [], watermarks := [], chunkState := [], tokens := []
    nextTokenId := 1, users := fun _ => none, settings := fun _ => none, catalog := [], objects := [], runs := runs
    nextRunId := 4 }

def sampleRuns : List LaunchedRun :=
  [{ runId := 1, connectionId := 1, tableFqn := "public.orders", mode := .bootstrap },
    { runId := 2, connectionId := 1, tableFqn := "public.orders", mode := .incremental },
    { runId := 3, connectionId := 2, tableFqn := "public.orders", mode := .bootstrap }]

/-- The request for the second run fails. -/
def secondFails (run : LaunchedRun) : Answer :=
  if run.runId = 2 then .raised else .deleted

theorem unanswered_run_stays :
    (deleteRuns 1 (fun _ => .runs) secondFails sampleRuns).runs = ((launched sampleRuns).deleteRuns 1 [2]).runs ∧
    (deleteRuns 1 (fun _ => .runs) secondFails sampleRuns).returned = some 1 := by
  have refined := delete_runs_refined (launched sampleRuns) 1 (fun _ => .runs) secondFails (fun _ => rfl) (by decide)
    (by unfold Heard; decide) (by decide) (by decide)
  exact ⟨refined.1, refined.2 (by decide)⟩

/-- Whatever Dagster answers, the runs of other connections stay, in their order. -/
theorem delete_runs_spares_others (connectionId : Int) (listing : Nat -> Listing) (answer : LaunchedRun -> Answer)
    (runs : List LaunchedRun) : (runs.filter (fun run => decide (run.connectionId ≠ connectionId))).Sublist
      (deleteRuns connectionId listing answer runs).runs := by
  refine List.Sublist.trans ?_ (kept_sublist_rounds listing 200 0 runs)
  refine List.monotone_filter_right runs (fun run other => ?_)
  rw [decide_eq_false (of_decide_eq_true other)]
  rfl

/-- When Dagster refuses every deletion, nothing is deleted and `delete_runs`
returns two hundred times the number of runs it is shown. -/
theorem refused_counted (connectionId : Int) (listing : Nat -> Listing) (answer : LaunchedRun -> Answer)
    (runs : List LaunchedRun) (listed : forall round, listing round = .runs)
    (refused : forall run, run ∈ runs -> run.connectionId = connectionId -> answer run = .refused) :
    (deleteRuns connectionId listing answer runs).runs = runs ∧
      (deleteRuns connectionId listing answer runs).returned =
        some (200 * min 100 (runs.filter (fun run => decide (run.connectionId = connectionId))).length) := by
  have loop : deleteRuns connectionId listing answer runs =
      { returned := some (0 + 200 * (newest connectionId 100 runs).length), runs := runs } :=
    refused_rounds listed refused
  rw [loop]
  refine ⟨rfl, ?_⟩
  rw [newest, List.length_take, List.length_reverse, Nat.zero_add]

end RunDeletion
end WarehouseSync

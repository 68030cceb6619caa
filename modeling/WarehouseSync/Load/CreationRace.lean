import WarehouseSync.Library.Transition
import WarehouseSync.Load.CreateTable

namespace WarehouseSync
namespace CreateTable

open IcebergWriter Schema Transition

/-!
# Callers that create the same table

A bootstrap and an incremental run of a new object both call
`create_or_get_table` and then commit files to the table.  A caller that finds
the name taken by the other drops the entry and creates the table once more,
and nothing tells it whether the other has committed in the meantime.

The race has any number of callers.  Between two steps of a call every other
caller may take steps of its own, commits included.
-/

universe u

variable {φ : Type u}

/-- A worker that calls the helper and, once it has returned, commits.  A commit
loads the table first and then compares and swaps its location, so what it has
loaded is kept between its two requests: another worker may replace the table in
between. -/
structure Caller where
  request : Request
  stage : Stage
  loaded : Option Nat
deriving DecidableEq, Repr

/-- All the workers over one catalog.  The files of the commits that have succeeded
are put on record beside the table, since the table itself cannot tell which files
it has lost. -/
structure Race (φ : Type u) where
  catalog : Catalog φ
  callers : List Caller
  committed : List φ

/-- One request of one worker, or of a writer that only changes the schema.  The
requests of the workers may follow each other in any order, and each request to
create the table may meet its own fault. -/
inductive RaceEvent (φ : Type u) where
  /-- A caller takes the next step of `create_or_get_table`. -/
  | create (index : Nat) (fault : Option Fault)
  /-- It loads the table for a commit. -/
  | load (index : Nat)
  /-- It adds its files to what it has loaded. -/
  | add (index : Nat) (files : List φ)
  /-- A commit without files, such as a schema change. -/
  | touch (schema : List String)
deriving DecidableEq, Repr

/-- A commit writes the next metadata object and moves the entry to it.  The objects
are numbered in the order in which they are written, so no two tables are ever at
one location. -/
def Catalog.swap (catalog : Catalog φ) (table : LakeTable φ) : Catalog φ :=
  { catalog with entry := some { location := catalog.written, table := table }
                 written := catalog.written + 1 }

def Race.withCaller (race : Race φ) (index : Nat) (caller : Caller) : Race φ :=
  { race with callers := race.callers.set index caller }

/-- One step of `create_or_get_table` by the caller, on the catalog that all of them
share.  The model of a single call is reused as it is: only the catalog may differ
from what the call's last step has left. -/
def stepCaller (race : Race φ) (index : Nat) (caller : Caller) (fault : Option Fault) : Option (Race φ) :=
  (stepCreate caller.request (race.catalog, caller.stage) fault).map (fun next =>
    { race with catalog := next.1, callers := race.callers.set index { caller with stage := next.2 } })

/-- Only a caller that has its table commits, and it has to find the table in the
catalog: another caller may have dropped the entry since. -/
def loadForCommit (race : Race φ) (index : Nat) (caller : Caller) : Option (Race φ) :=
  match caller.stage, race.catalog.entry with
  | .returned, some entry => some (race.withCaller index { caller with loaded := some entry.location })
  | _, _ => none

/-- The files are added if the table is still where it was loaded from.  Otherwise
nothing is on record as committed and the table has to be loaded again, which is
what the retry loop does. -/
def addFiles (race : Race φ) (index : Nat) (caller : Caller) (files : List φ) : Option (Race φ) :=
  match caller.loaded, race.catalog.entry with
  | some location, some entry =>
      let next := race.withCaller index { caller with loaded := none }
      if location = entry.location then
        some { next with
          catalog := race.catalog.swap { entry.table with rows := entry.table.rows ++ files }
          committed := race.committed ++ files }
      else some next
  | _, _ => none

def stepRace (race : Race φ) : RaceEvent φ -> Option (Race φ)
  | .create index fault => race.callers[index]?.bind (fun caller => stepCaller race index caller fault)
  | .load index => race.callers[index]?.bind (fun caller => loadForCommit race index caller)
  | .add index files => race.callers[index]?.bind (fun caller => addFiles race index caller files)
  | .touch schema => race.catalog.entry.map (fun entry =>
      { race with catalog := race.catalog.swap { entry.table with schema := schema } })

/-- The callers, before any of them has asked the catalog for the table. -/
def Race.start (catalog : Catalog φ) (requests : List Request) : Race φ :=
  { catalog := catalog
    callers := requests.map (fun request => { request := request, stage := .loading, loaded := none })
    committed := [] }

/-- The files that are in the table of the catalog. -/
def Catalog.files (catalog : Catalog φ) : List φ :=
  match catalog.entry with
  | none => []
  | some entry => entry.table.rows

/-- Every file whose commit succeeded is in the table of the catalog.  This is about
every state of a run: a file that comes back later was still missing for its
readers. -/
def Race.Kept (race : Race φ) : Prop :=
  forall file, file ∈ race.committed -> file ∈ race.catalog.files

/-- The event removes the catalog entry.  Dropping it is a step of its own in a call
that is about to create the table anew, and it only counts if the request reaches
the catalog. -/
def Race.removes (race : Race φ) : RaceEvent φ -> Bool
  | .create index none =>
      match race.callers[index]? with
      | none => false
      | some caller => caller.stage.drops
  | _ => false

/-- The entry is only removed while nothing has been committed.  It is a condition
on the state before the step, and it is all that matters: what the drop removes then
is a table without rows on record. -/
def Race.DropsEarly (race : Race φ) (event : RaceEvent φ) : Prop :=
  race.removes event = true -> race.committed = []

variable {race next : Race φ}

theorem stepCaller_eq_some {index : Nat} {caller : Caller} {fault : Option Fault}
    (taken : stepCaller race index caller fault = some next) :
    Exists fun moved : Catalog φ × Stage =>
      stepCreate caller.request (race.catalog, caller.stage) fault = some moved ∧
        next.catalog = moved.1 ∧ next.committed = race.committed := by
  rcases Option.map_eq_some_iff.mp taken with ⟨moved, stepped, rfl⟩
  exact ⟨moved, stepped, rfl, rfl⟩

/-- A load changes nothing that matters here. -/
theorem loadForCommit_eq_some {index : Nat} {caller : Caller}
    (taken : loadForCommit race index caller = some next) :
    next.catalog = race.catalog ∧ next.committed = race.committed := by
  unfold loadForCommit at taken
  split at taken
  · cases taken
    exact ⟨rfl, rfl⟩
  · cases taken

/-- A commit adds its files to the table, or changes nothing. -/
theorem addFiles_eq_some {index : Nat} {caller : Caller} {files : List φ}
    (taken : addFiles race index caller files = some next) :
    (next.catalog.files = race.catalog.files ∧ next.committed = race.committed) ∨
      (next.catalog.files = race.catalog.files ++ files ∧ next.committed = race.committed ++ files) := by
  unfold addFiles at taken
  split at taken
  · rename_i location entry loaded registered
    split at taken
    · cases taken
      refine Or.inr ⟨?_, rfl⟩
      simp only [Catalog.files, Catalog.swap, registered]
    · cases taken
      exact Or.inl ⟨rfl, rfl⟩
  · cases taken

theorem files_of_absent {catalog : Catalog φ} (absent : catalog.entry = none) : catalog.files = [] := by
  rw [Catalog.files, absent]

/-- A step of a call that does not remove the entry leaves the files of the
table as they are. -/
theorem files_stepCreate {request : Request} {catalog : Catalog φ} {stage : Stage} {fault : Option Fault}
    {moved : Catalog φ × Stage} (taken : stepCreate request (catalog, stage) fault = some moved)
    (stays : stage.drops = true -> fault ≠ none) : moved.1.files = catalog.files := by
  rcases stepCreate_cases taken with same | ⟨drops, passes, _⟩ | ⟨absent, _, spec, _, created⟩
  · rw [same]
  · exact absurd passes (stays drops)
  · rw [files_of_absent absent, created]
    rfl

theorem files_of_removed {request : Request} {catalog : Catalog φ} {stage : Stage}
    {moved : Catalog φ × Stage} (taken : stepCreate request (catalog, stage) none = some moved)
    (drops : stage.drops = true) : moved.1.files = [] := by
  cases stage with
  | dropping =>
      cases taken
      rfl
  | clashed =>
      cases taken
      rfl
  | _ => cases drops

/-- An event removes the entry, or neither it nor the record loses a file. -/
theorem stepRace_cases {event : RaceEvent φ} (taken : stepRace race event = some next) :
    (race.removes event = true ∧ next.committed = race.committed ∧ next.catalog.files = []) ∨
      (race.removes event = false ∧ Exists fun added : List φ =>
        next.committed = race.committed ++ added ∧ next.catalog.files = race.catalog.files ++ added) := by
  cases event with
  | create index fault =>
      rcases Option.bind_eq_some_iff.mp taken with ⟨caller, found, moves⟩
      rcases stepCaller_eq_some moves with ⟨moved, stepped, catalog, committed⟩
      have removes : race.removes (.create index none) = caller.stage.drops := by
        simp only [Race.removes, found]
      have unchanged (stays : caller.stage.drops = true -> fault ≠ none) : Exists fun added : List φ =>
          next.committed = race.committed ++ added ∧ next.catalog.files = race.catalog.files ++ added := by
        refine ⟨[], ?_, ?_⟩
        · rw [committed, List.append_nil]
        · rw [catalog, files_stepCreate stepped stays, List.append_nil]
      cases fault with
      | some fault => exact Or.inr ⟨rfl, unchanged (fun _ => Option.some_ne_none fault)⟩
      | none =>
          rw [removes]
          cases drops : caller.stage.drops with
          | true =>
              rw [catalog]
              exact Or.inl ⟨rfl, committed, files_of_removed stepped drops⟩
          | false =>
              refine Or.inr ⟨rfl, unchanged ?_⟩
              rw [drops]
              rintro ⟨⟩
  | load index =>
      rcases Option.bind_eq_some_iff.mp taken with ⟨caller, _, loads⟩
      rcases loadForCommit_eq_some loads with ⟨catalog, committed⟩
      refine Or.inr ⟨rfl, [], ?_, ?_⟩
      · rw [committed, List.append_nil]
      · rw [catalog, List.append_nil]
  | add index files =>
      rcases Option.bind_eq_some_iff.mp taken with ⟨caller, _, adds⟩
      rcases addFiles_eq_some adds with ⟨held, committed⟩ | ⟨held, committed⟩
      · refine Or.inr ⟨rfl, [], ?_, ?_⟩
        · rw [committed, List.append_nil]
        · rw [held, List.append_nil]
      · exact Or.inr ⟨rfl, files, committed, held⟩
  | touch schema =>
      rcases Option.map_eq_some_iff.mp taken with ⟨entry, registered, rfl⟩
      refine Or.inr ⟨rfl, [], (List.append_nil _).symm, ?_⟩
      simp only [Catalog.files, Catalog.swap, registered, List.append_nil]

theorem kept_step_iff {event : RaceEvent φ} (kept : race.Kept) (taken : stepRace race event = some next) :
    next.Kept ↔ race.DropsEarly event := by
  unfold Race.DropsEarly
  rcases stepRace_cases taken with ⟨removes, committed, gone⟩ | ⟨stays, added, committed, held⟩
  · constructor
    · intro still _
      refine List.eq_nil_iff_forall_not_mem.mpr (fun file recorded => ?_)
      rw [← committed] at recorded
      have present := still file recorded
      rw [gone] at present
      cases present
    · intro early file recorded
      rw [committed, early removes] at recorded
      cases recorded
  · refine iff_of_true ?_ ?_
    · intro file recorded
      rw [committed] at recorded
      rw [held]
      rcases List.mem_append.mp recorded with before | new
      · exact List.mem_append_left added (kept file before)
      · exact List.mem_append_right race.catalog.files new
    · intro removes
      rw [stays] at removes
      cases removes

/-! ## Every interleaving -/

/-- Whatever the interleaving, the catalog's table holds the committed files all
along exactly when no caller removes the entry after the first commit. -/
theorem committed_files_kept_iff (catalog : Catalog φ) (requests : List Request)
    (events : List (RaceEvent φ)) (last : Race φ)
    (reached : run stepRace (Race.start catalog requests) events = some last) :
    Throughout stepRace Race.Kept (Race.start catalog requests) events ↔
      Along stepRace Race.DropsEarly (Race.start catalog requests) events := by
  have initially : (Race.start catalog requests).Kept := by
    rintro file ⟨⟩
  exact @throughout_iff_along _ _ stepRace (fun _ => True) Race.Kept Race.DropsEarly
    (fun _ _ _ _ _ => trivial) (fun _ _ _ _ kept taken => kept_step_iff kept taken)
    _ last events trivial initially reached

/-- A catalog without the table. -/
def newObject : Catalog String :=
  { entry := none, written := 0, deleted := [] }

def idTable : Request :=
  { schema := ["id"], partitionBy := [] }

def returnedCaller : Caller :=
  { request := idTable, stage := .returned, loaded := none }

/-- The second caller looks for the table after the first has created it. -/
theorem late_caller_keeps_commit :
    let events : List (RaceEvent String) :=
      [.create 0 none, .create 0 none, .load 0, .add 0 ["chunk-0.parquet"], .create 1 none]
    Throughout stepRace Race.Kept (Race.start newObject [idTable, idTable]) events ↔
      Along stepRace Race.DropsEarly (Race.start newObject [idTable, idTable]) events :=
  committed_files_kept_iff newObject [idTable, idTable] _
    { catalog :=
        { entry := some { location := 1
                          table := { schema := ["id"], spec := [], rows := ["chunk-0.parquet"] } }
          written := 2, deleted := [] }
      callers := [returnedCaller, returnedCaller], committed := ["chunk-0.parquet"] } rfl

/-- The first of two callers that found no table has created it and committed;
the second is about to create it. -/
def firstCommitted : Race String :=
  { catalog :=
      { entry := some { location := 1
                        table := { schema := ["id"], spec := [], rows := ["chunk-0.parquet"] } }
        written := 2, deleted := [] }
    callers := [returnedCaller, { request := idTable, stage := .creating, loaded := none }]
    committed := ["chunk-0.parquet"] }

theorem second_caller_clashes :
    stepRace firstCommitted (.create 1 none) = some { firstCommitted with
      callers := [returnedCaller, { request := idTable, stage := .clashed, loaded := none }] } := by
  have built : buildPartitionSpec idTable.schema 1000 idTable.partitionBy = .ok [] := rfl
  have clash : stepCreate idTable (firstCommitted.catalog, .creating) none =
      some (firstCommitted.catalog, .clashed) := by
    change some (tryCreate idTable firstCommitted.catalog none afterClash) = _
    rw [tryCreate_of_registered rfl built, afterClash, if_pos alreadyExists_clashText]
  change stepCaller firstCommitted 1 { request := idTable, stage := .creating, loaded := none } none = _
  rw [stepCaller, clash]
  rfl

/-- The second caller drops the table with the file and creates an empty one. -/
theorem lost_race_loses_commit :
    let last : Race String :=
      { catalog :=
          { entry := some { location := 2, table := { schema := ["id"], spec := [], rows := [] } }
            written := 3, deleted := [] }
        callers := [returnedCaller, returnedCaller], committed := ["chunk-0.parquet"] }
    run stepRace (Race.start newObject [idTable, idTable])
        ([.create 0 none, .create 1 none, .create 0 none, .load 0, .add 0 ["chunk-0.parquet"]] ++
          [.create 1 none, .create 1 none, .create 1 none]) = some last ∧ ¬ last.Kept := by
  intro last
  constructor
  · exact run_append_eq_some.mpr ⟨firstCommitted, rfl,
      run_cons_eq_some.mpr ⟨_, second_caller_clashes, rfl⟩⟩
  · intro kept
    cases kept "chunk-0.parquet" (List.mem_singleton.mpr rfl)

end CreateTable
end WarehouseSync

import WarehouseSync.Library.Transition
import WarehouseSync.Load.Reconcile

namespace WarehouseSync
namespace Reconcile

open CopyWorker KeyedRows Merge Transition

/-!
# A reconcile pass among other work

While a pass runs, the source changes and incremental runs merge what they have
extracted.  The pass decides what to delete from two reads, first of the lake
and then of the source, and carries it out in many commits later on.  An id that
it deletes was in the lake at the first read and not in the source at the
second, whatever happened in between and since.
-/

variable {ρ σ τ : Type}

/-- Where a pass stands, with what it holds in memory there.  The keys of both reads
are carried through the deletes, because the additions are planned from them and not
from a new read. -/
inductive Phase (ρ : Type) where
  | waiting
  | scanned (lakeIds : List (Option Int))
  | deleting (lakeIds sourceIds : List (Option Int)) (pending : List (List (Option Int)))
  | adding (pending : List (List (Option Int) × Nat))
  | merging (files : List (DataFile ρ)) (pending : List (List (Option Int) × Nat))
  | finished
  | failed
deriving DecidableEq

/-- The windows are the rows that incremental runs have extracted.  They are kept
for good, since a run may merge its window again after a failure, and so long after
the source has moved on. -/
structure World (ρ σ : Type) where
  source : List ρ
  lake : List σ
  windows : List (List ρ)
  phase : Phase ρ
deriving DecidableEq

inductive PassEvent where
  | scan
  | query
  | delete
  | endDeletes
  | extract
  | merge
  | nextBatch
  | finish
  | fail
deriving DecidableEq

inductive Event (ρ : Type) where
  /-- A transaction leaves the source with these rows. -/
  | commit (rows : List ρ)
  /-- An incremental run extracts these rows. -/
  | extractWindow (rows : List ρ)
  /-- An incremental run merges a batch of the window. -/
  | mergeBatch (index : Nat) (rows : List ρ)
  | pass (event : PassEvent)
deriving DecidableEq

/-- The batches that are deleted after both reads.  They are fixed here, before the
first delete, so whatever the source inserts from now on is not looked at again. -/
def deletePlan (sizes : BatchSizes) (lakeIds sourceIds : List (Option Int)) : List (List (Option Int)) :=
  if lakeIds.length ≠ 0 then Splitting.slices sizes.delete (deletedIds lakeIds sourceIds) else []

/-- The batches that are added after the deletes.  They come from the same two
reads, with the index that names the staging path of each. -/
def addPlan (sizes : BatchSizes) (lakeIds sourceIds : List (Option Int)) :
    List (List (Option Int) × Nat) :=
  if sourceIds.length ≠ 0 ∧ missingIds lakeIds sourceIds ≠ [] then
    (Splitting.slices sizes.insert (missingIds lakeIds sourceIds)).zipIdx
  else []

variable [LinearOrder τ]

/-- One step of the pass.  Every delete and every merge is one commit on the table
as it is then, or raises and ends the pass.  A step of its own is whatever other
writers may come before or after: the two reads, each commit and each copy, but not
the comparison in memory. -/
def stepPass (columns : Columns ρ σ τ) (sizes : BatchSizes) (target : Target) (world : World ρ σ) :
    PassEvent -> Option (World ρ σ)
  | .scan =>
      match world.phase with
      | .waiting => some { world with phase := .scanned (world.lake.map columns.lakeId) }
      | _ => none
  | .query =>
      match world.phase with
      | .scanned lakeIds =>
          let sourceIds :=
            (Splitting.batches sizes.fetch (world.source.map columns.source.id)).flatten
          some { world with
            phase := .deleting lakeIds sourceIds (deletePlan sizes lakeIds sourceIds) }
      | _ => none
  | .delete =>
      match world.phase with
      | .deleting lakeIds sourceIds (chunk :: pending) =>
          (literals chunk).map (fun doomed =>
            { world with
              lake := KeyedRows.delete columns.lakeId doomed world.lake
              phase := .deleting lakeIds sourceIds pending })
      | _ => none
  | .endDeletes =>
      match world.phase with
      | .deleting lakeIds sourceIds [] =>
          some { world with phase := .adding (addPlan sizes lakeIds sourceIds) }
      | _ => none
  | .extract =>
      match world.phase with
      | .adding ((batch, index) :: pending) =>
          (literals batch).map (fun ids =>
            { world with
              phase := .merging (extractMissing columns target world.source index ids).files pending })
      | _ => none
  | .merge =>
      match world.phase with
      | .merging (file :: files) pending =>
          some { world with
            lake := (mergeArrowTable columns.staged columns.align columns.lakeId world.lake file.rows).lake
            phase := .merging files pending }
      | _ => none
  | .nextBatch =>
      match world.phase with
      | .merging [] pending => some { world with phase := .adding pending }
      | _ => none
  | .finish =>
      match world.phase with
      | .adding [] => some { world with phase := .finished }
      | _ => none
  | .fail =>
      match world.phase with
      | .finished => none
      | .failed => none
      | _ => some { world with phase := .failed }

/-- One step of the source, of an incremental run or of the pass.  The other writers
are as free as possible: the source may become anything, and a window may be
extracted and merged at any time, in any batches and more than once. -/
def step [DecidableEq ρ] (columns : Columns ρ σ τ) (sizes : BatchSizes) (target : Target)
    (world : World ρ σ) : Event ρ -> Option (World ρ σ)
  | .commit rows => some { world with source := rows }
  | .extractWindow rows =>
      if rows ⊆ world.source then some { world with windows := world.windows ++ [rows] } else none
  | .mergeBatch index rows =>
      match world.windows[index]? with
      | none => none
      | some window =>
          if rows ⊆ window then
            some { world with
              lake := (mergeBatch columns.staged columns.align columns.lakeId
                { lake := world.lake, rowsWritten := 0, batches := 0 } rows).lake }
          else none
  | .pass event => stepPass columns sizes target world event

/-- Everything a step of the pass can do.  The invariants are proved by cases on
this relation, so the step function is taken apart once; a constructor says only
what those proofs need of its phase. -/
inductive PassEffect (columns : Columns ρ σ τ) (sizes : BatchSizes) (target : Target) (world : World ρ σ) :
    PassEvent -> World ρ σ -> Prop
  | scan (waiting : world.phase = .waiting) :
      PassEffect columns sizes target world .scan
        { world with phase := .scanned (world.lake.map columns.lakeId) }
  | query {lakeIds : List (Option Int)} (scanned : world.phase = .scanned lakeIds) :
      PassEffect columns sizes target world .query
        { world with
          phase := .deleting lakeIds (world.source.map columns.source.id)
            (deletePlan sizes lakeIds (world.source.map columns.source.id)) }
  | delete {lakeIds sourceIds chunk : List (Option Int)} {pending : List (List (Option Int))}
      (deleting : world.phase = .deleting lakeIds sourceIds (chunk :: pending)) (numbered : none ∉ chunk) :
      PassEffect columns sizes target world .delete
        { world with
          lake := KeyedRows.delete columns.lakeId (chunk.filterMap (fun id => id)) world.lake
          phase := .deleting lakeIds sourceIds pending }
  | endDeletes {pending : List (List (Option Int) × Nat)} :
      PassEffect columns sizes target world .endDeletes { world with phase := .adding pending }
  | extract {index : Nat} {ids : List Int} {pending : List (List (Option Int) × Nat)} :
      PassEffect columns sizes target world .extract
        { world with
          phase := .merging (extractMissing columns target world.source index ids).files pending }
  | merge {file : DataFile ρ} {files : List (DataFile ρ)} {pending : List (List (Option Int) × Nat)}
      (merging : world.phase = .merging (file :: files) pending) :
      PassEffect columns sizes target world .merge
        { world with
          lake := upsert columns.lakeId world.lake (writtenRows columns.staged columns.align file.rows)
          phase := .merging files pending }
  | nextBatch {pending : List (List (Option Int) × Nat)} :
      PassEffect columns sizes target world .nextBatch { world with phase := .adding pending }
  | finish : PassEffect columns sizes target world .finish { world with phase := .finished }
  | fail : PassEffect columns sizes target world .fail { world with phase := .failed }

theorem passEffect_of_stepPass {columns : Columns ρ σ τ} {sizes : BatchSizes} {target : Target}
    {world next : World ρ σ} {event : PassEvent}
    (taken : stepPass columns sizes target world event = some next) :
    PassEffect columns sizes target world event next := by
  cases event with
  | scan =>
      simp only [stepPass] at taken
      split at taken
      · rename_i waiting
        cases taken
        exact PassEffect.scan waiting
      · cases taken
  | query =>
      simp only [stepPass, Splitting.flatten_batches] at taken
      split at taken
      · rename_i lakeIds scanned
        cases taken
        exact PassEffect.query scanned
      · cases taken
  | delete =>
      simp only [stepPass] at taken
      split at taken
      · rename_i lakeIds sourceIds chunk pending deleting
        rcases Option.map_eq_some_iff.mp taken with ⟨doomed, listed, rfl⟩
        rcases literals_eq_some_iff.mp listed with ⟨numbered, rfl⟩
        exact PassEffect.delete deleting numbered
      · cases taken
  | extract =>
      simp only [stepPass] at taken
      split at taken
      · rename_i batch index pending adding
        rcases Option.map_eq_some_iff.mp taken with ⟨ids, _, rfl⟩
        exact PassEffect.extract
      · cases taken
  | merge =>
      simp only [stepPass] at taken
      split at taken
      · rename_i file files pending merging
        cases taken
        exact PassEffect.merge merging
      · cases taken
  | endDeletes =>
      simp only [stepPass] at taken
      split at taken
      · cases taken
        exact PassEffect.endDeletes
      · cases taken
  | nextBatch =>
      simp only [stepPass] at taken
      split at taken
      · cases taken
        exact PassEffect.nextBatch
      · cases taken
  | finish =>
      simp only [stepPass] at taken
      split at taken
      · cases taken
        exact PassEffect.finish
      · cases taken
  | fail =>
      simp only [stepPass] at taken
      split at taken
      · cases taken
      · cases taken
      · cases taken
        exact PassEffect.fail

/-- The source changes, a window is extracted or merged, or the pass goes on. -/
theorem step_cases [DecidableEq ρ] {columns : Columns ρ σ τ} {sizes : BatchSizes} {target : Target}
    {world next : World ρ σ} {event : Event ρ}
    (taken : step columns sizes target world event = some next) :
    (Exists fun rows => event = .commit rows ∧ next = { world with source := rows }) ∨
    (Exists fun rows => event = .extractWindow rows ∧ rows ⊆ world.source ∧
      next = { world with windows := world.windows ++ [rows] }) ∨
    (Exists fun index => Exists fun window => Exists fun rows => event = .mergeBatch index rows ∧
      world.windows[index]? = some window ∧ rows ⊆ window ∧ next = { world with
        lake := (mergeBatch columns.staged columns.align columns.lakeId
          { lake := world.lake, rowsWritten := 0, batches := 0 } rows).lake }) ∨
    Exists fun passEvent => event = .pass passEvent ∧
      stepPass columns sizes target world passEvent = some next := by
  cases event with
  | commit rows =>
      cases taken
      exact Or.inl ⟨rows, rfl, rfl⟩
  | extractWindow rows =>
      simp only [step] at taken
      split at taken
      · rename_i included
        cases taken
        exact Or.inr (Or.inl ⟨rows, rfl, included, rfl⟩)
      · cases taken
  | mergeBatch index rows =>
      simp only [step] at taken
      split at taken
      · cases taken
      · rename_i window found
        split at taken
        · rename_i included
          cases taken
          exact Or.inr (Or.inr (Or.inl ⟨index, window, rows, rfl, found, included, rfl⟩))
        · cases taken
  | pass passEvent => exact Or.inr (Or.inr (Or.inr ⟨passEvent, rfl, taken⟩))

section Alone

variable [DecidableEq ρ] {columns : Columns ρ σ τ} {sizes : BatchSizes} {target : Target}

theorem run_deletes {pending : List (List (Option Int))} {progress kept : Progress σ}
    (deleted : pending.foldlM (deleteBatch columns) progress = some kept) (world : World ρ σ)
    (lakeIds sourceIds : List (Option Int)) :
    run (step columns sizes target)
        { world with lake := progress.lake, phase := .deleting lakeIds sourceIds pending }
        (pending.map (fun _ => .pass .delete)) =
      some { world with lake := kept.lake, phase := .deleting lakeIds sourceIds [] } := by
  induction pending generalizing progress with
  | nil =>
      cases deleted
      rfl
  | cons chunk pending ih =>
      rw [List.foldlM_cons] at deleted
      rcases Option.bind_eq_some_iff.mp deleted with ⟨middle, here, rest⟩
      rcases Option.bind_eq_some_iff.mp here with ⟨doomed, listed, done⟩
      cases done
      refine run_cons_eq_some.mpr ⟨_, ?_, ih rest⟩
      change (literals chunk).map _ = _
      rw [listed]
      rfl

theorem run_merges (files : List (DataFile ρ)) (world : World ρ σ) (lake : List σ)
    (pending : List (List (Option Int) × Nat)) :
    run (step columns sizes target) { world with lake := lake, phase := .merging files pending }
        (files.map (fun _ => .pass .merge)) =
      some { world with lake := mergeParts columns lake files, phase := .merging [] pending } := by
  induction files generalizing lake with
  | nil => rfl
  | cons file files ih => exact run_cons_eq_some.mpr ⟨_, rfl, ih _⟩

variable (sizes) in
theorem run_adds {pending : List (List (Option Int) × Nat)} {progress grown : Progress σ}
    (world : World ρ σ)
    (added : pending.foldlM (addBatch columns target world.source) progress = some grown) :
    Exists fun passes : List PassEvent =>
      run (step columns sizes target) { world with lake := progress.lake, phase := .adding pending }
          (passes.map .pass) = some { world with lake := grown.lake, phase := .adding [] } := by
  induction pending generalizing progress with
  | nil =>
      cases added
      exact ⟨[], rfl⟩
  | cons batch pending ih =>
      rcases batch with ⟨batch, index⟩
      rw [List.foldlM_cons] at added
      rcases Option.bind_eq_some_iff.mp added with ⟨middle, here, rest⟩
      rcases Option.bind_eq_some_iff.mp here with ⟨ids, listed, done⟩
      cases done
      rcases ih rest with ⟨passes, reached⟩
      let files := (extractMissing columns target world.source index ids).files
      refine ⟨.extract :: files.map (fun _ => .merge) ++ .nextBatch :: passes, ?_⟩
      rw [List.map_append, List.map_cons, List.map_map, run_append_eq_some]
      refine ⟨_, run_cons_eq_some.mpr ⟨_, ?_, run_merges files world progress.lake pending⟩,
        run_cons_eq_some.mpr ⟨_, rfl, reached⟩⟩
      change (literals batch).map _ = _
      rw [listed]
      rfl

omit [LinearOrder τ] [DecidableEq ρ] in
theorem deleteAbsent_eq_deletePlan (lake : List σ) (lakeIds sourceIds : List (Option Int)) :
    deleteAbsent columns sizes lake lakeIds sourceIds =
      (deletePlan sizes lakeIds sourceIds).foldlM (deleteBatch columns) { lake := lake, count := 0 } := by
  unfold deleteAbsent deletePlan
  split
  · rfl
  · rfl

omit [DecidableEq ρ] in
theorem addAbsent_eq_addPlan (source : List ρ) (lake : List σ) (lakeIds sourceIds : List (Option Int)) :
    addAbsent columns sizes target source lake lakeIds sourceIds =
      (addPlan sizes lakeIds sourceIds).foldlM (addBatch columns target source)
        { lake := lake, count := 0 } := by
  unfold addAbsent addPlan
  split
  · rfl
  · rfl

/-- When nothing else happens, the steps of the pass are `reconcile_table`. -/
theorem run_alone {world : World ρ σ} (waiting : world.phase = .waiting) {summary : Summary σ}
    (passed : reconcileTable columns sizes target world.source world.lake = some summary) :
    Exists fun passes : List PassEvent =>
      run (step columns sizes target) world (passes.map .pass) =
        some { world with lake := summary.lake, phase := .finished } := by
  rcases Option.bind_eq_some_iff.mp passed with ⟨kept, deleted, onward⟩
  rcases Option.bind_eq_some_iff.mp onward with ⟨grown, added, done⟩
  cases done
  let lakeIds := world.lake.map columns.lakeId
  let sourceIds := (Splitting.batches sizes.fetch (world.source.map columns.source.id)).flatten
  rw [deleteAbsent_eq_deletePlan] at deleted
  rw [addAbsent_eq_addPlan] at added
  rcases run_adds sizes world added with ⟨passes, brought⟩
  refine ⟨.scan :: .query :: ((deletePlan sizes lakeIds sourceIds).map (fun _ => .delete) ++
    .endDeletes :: (passes ++ [.finish])), ?_⟩
  rw [List.map_cons, List.map_cons, List.map_append, List.map_map, List.map_cons, List.map_append]
  have scanned : stepPass columns sizes target world .scan =
      some { world with phase := .scanned lakeIds } := by
    simp only [stepPass, waiting]
    rfl
  exact run_cons_eq_some.mpr ⟨_, scanned, run_cons_eq_some.mpr ⟨_, rfl, run_append_eq_some.mpr ⟨_,
    run_deletes deleted world lakeIds sourceIds, run_cons_eq_some.mpr ⟨_, rfl,
      run_append_eq_some.mpr ⟨_, brought, rfl⟩⟩⟩⟩⟩

end Alone

/-! ## Which steps take an id away -/

section Ids

variable {columns : Columns ρ σ τ}

omit [LinearOrder τ] in
theorem mem_ids_upsert {lake aligned : List σ} {id : Option Int} :
    id ∈ (upsert columns.lakeId lake aligned).map columns.lakeId ↔
      id ∈ lake.map columns.lakeId ∨ id ∈ aligned.map columns.lakeId := by
  rw [← not_iff_not, not_or, ← rowsAt_eq_nil_iff, ← rowsAt_eq_nil_iff, ← rowsAt_eq_nil_iff]
  cases id with
  | none => rw [rowsAt_upsert_none, List.append_eq_nil_iff]
  | some number =>
      rw [rowsAt_upsert_some]
      by_cases listed : number ∈ keys columns.lakeId aligned
      · simp [listed, mem_keys_iff_rowsAt.mp listed]
      · rw [if_neg listed]
        rw [mem_keys_iff_rowsAt, not_not] at listed
        simp [listed]

omit [LinearOrder τ] in
theorem mem_ids_delete {chunk : List (Option Int)} (present : none ∉ chunk) {lake : List σ}
    {id : Option Int} :
    id ∈ (KeyedRows.delete columns.lakeId (chunk.filterMap (fun id => id)) lake).map columns.lakeId ↔
      id ∈ lake.map columns.lakeId ∧ id ∉ chunk := by
  rw [← not_iff_not, ← rowsAt_eq_nil_iff]
  cases id with
  | none =>
      rw [rowsAt_delete_none, rowsAt_eq_nil_iff]
      simp [present]
  | some number =>
      rw [rowsAt_delete_some]
      by_cases listed : some number ∈ chunk
      · simp [listed]
      · simp [listed, rowsAt_eq_nil_iff]

/-- A merge brings only ids of the rows it is given. -/
theorem mem_ids_writtenRows {staged : List ρ} {id : Option Int}
    (member : id ∈ (writtenRows columns.staged columns.align staged).map columns.lakeId) :
    id ∈ staged.map columns.source.id := by
  rcases List.mem_map.mp member with ⟨_, written, carries⟩
  rcases List.mem_map.mp written with ⟨row, kept, rfl⟩
  rw [columns.lakeId_align] at carries
  exact List.mem_map.mpr ⟨row, mem_dedupe kept, carries⟩

/-- A pass takes an id out of the lake only by a batch of deletes that lists it. -/
theorem stepPass_removes {sizes : BatchSizes} {target : Target} {world next : World ρ σ}
    {event : PassEvent} (taken : stepPass columns sizes target world event = some next) {id : Option Int}
    (present : id ∈ world.lake.map columns.lakeId) (gone : id ∉ next.lake.map columns.lakeId) :
    Exists fun lakeIds => Exists fun sourceIds => Exists fun chunk => Exists fun pending =>
      world.phase = .deleting lakeIds sourceIds (chunk :: pending) ∧ id ∈ chunk := by
  cases passEffect_of_stepPass taken with
  | scan waiting => exact absurd present gone
  | query scanned => exact absurd present gone
  | @delete lakeIds sourceIds chunk pending deleting numbered =>
      refine ⟨lakeIds, sourceIds, chunk, pending, deleting, ?_⟩
      by_contra missing
      exact gone ((mem_ids_delete numbered).mpr ⟨present, missing⟩)
  | endDeletes => exact absurd present gone
  | extract => exact absurd present gone
  | merge merging => exact absurd (mem_ids_upsert.mpr (Or.inl present)) gone
  | nextBatch => exact absurd present gone
  | finish => exact absurd present gone
  | fail => exact absurd present gone

end Ids

section Reads

variable [DecidableEq ρ] (columns : Columns ρ σ τ) (sizes : BatchSizes) (target : Target)

/-- The run has scanned the lake in this state.  The state is recovered from the
events before the scan, because the pass itself keeps only the ids that it has read.
-/
def ScannedIn (start : World ρ σ) (events : List (Event ρ)) (atScan : World ρ σ) : Prop :=
  Exists fun before => Exists fun after => events = before ++ .pass .scan :: after ∧
    run (step columns sizes target) start before = some atScan

/-- After that it has queried the source in this state.  The scan comes first in the
code, which is what spares a row that is inserted between the two reads. -/
def QueriedIn (start : World ρ σ) (events : List (Event ρ)) (atScan atQuery : World ρ σ) : Prop :=
  Exists fun before => Exists fun after => events = before ++ .pass .query :: after ∧
    ScannedIn columns sizes target start before atScan ∧
      run (step columns sizes target) start before = some atQuery

/-- What the pass holds goes back to its two reads.  This is the invariant of a run:
the ids yet to be deleted were in the lake at the scan and not in the source at the
query. -/
def ReadBefore (start : World ρ σ) (events : List (Event ρ)) : Phase ρ -> Prop
  | .scanned lakeIds => Exists fun atScan : World ρ σ =>
      ScannedIn columns sizes target start events atScan ∧ lakeIds = atScan.lake.map columns.lakeId
  | .deleting lakeIds sourceIds pending => Exists fun atScan : World ρ σ => Exists fun atQuery : World ρ σ =>
      QueriedIn columns sizes target start events atScan atQuery ∧
        lakeIds = atScan.lake.map columns.lakeId ∧ sourceIds = atQuery.source.map columns.source.id ∧
          forall chunk, chunk ∈ pending -> forall id, id ∈ chunk -> id ∈ deletedIds lakeIds sourceIds
  | _ => True

variable {columns sizes target} {start : World ρ σ} {events : List (Event ρ)}

theorem ScannedIn.concat {atScan : World ρ σ} (scanned : ScannedIn columns sizes target start events atScan)
    (event : Event ρ) : ScannedIn columns sizes target start (events ++ [event]) atScan := by
  rcases scanned with ⟨before, after, rfl, reached⟩
  exact ⟨before, after ++ [event], by rw [List.append_assoc, List.cons_append], reached⟩

theorem QueriedIn.concat {atScan atQuery : World ρ σ}
    (queried : QueriedIn columns sizes target start events atScan atQuery) (event : Event ρ) :
    QueriedIn columns sizes target start (events ++ [event]) atScan atQuery := by
  rcases queried with ⟨before, after, rfl, scanned, reached⟩
  exact ⟨before, after ++ [event], by rw [List.append_assoc, List.cons_append], scanned, reached⟩

theorem ReadBefore.concat {phase : Phase ρ} (read : ReadBefore columns sizes target start events phase)
    (event : Event ρ) : ReadBefore columns sizes target start (events ++ [event]) phase := by
  cases phase with
  | scanned lakeIds =>
      rcases read with ⟨atScan, scanned, listed⟩
      exact ⟨atScan, scanned.concat event, listed⟩
  | deleting lakeIds sourceIds pending =>
      rcases read with ⟨atScan, atQuery, queried, listed⟩
      exact ⟨atScan, atQuery, queried.concat event, listed⟩
  | waiting => trivial
  | adding pending => trivial
  | merging files pending => trivial
  | finished => trivial
  | failed => trivial

omit [LinearOrder τ] [DecidableEq ρ] in
theorem mem_deletePlan {lakeIds sourceIds chunk : List (Option Int)} {id : Option Int}
    (planned : chunk ∈ deletePlan sizes lakeIds sourceIds) (listed : id ∈ chunk) :
    id ∈ deletedIds lakeIds sourceIds := by
  unfold deletePlan at planned
  split at planned
  · rw [← Splitting.flatten_slices sizes.delete_pos (deletedIds lakeIds sourceIds)]
    exact List.mem_flatten.mpr ⟨chunk, planned, listed⟩
  · cases planned

theorem ReadBefore.stepPass {world next : World ρ σ} {event : PassEvent}
    (reached : run (Reconcile.step columns sizes target) start events = some world)
    (read : ReadBefore columns sizes target start events world.phase)
    (taken : Reconcile.stepPass columns sizes target world event = some next) :
    ReadBefore columns sizes target start (events ++ [.pass event]) next.phase := by
  cases passEffect_of_stepPass taken with
  | scan waiting => exact ⟨world, ⟨events, [], rfl, reached⟩, rfl⟩
  | query scanned =>
      rw [scanned] at read
      rcases read with ⟨atScan, scannedIn, listed⟩
      exact ⟨atScan, world, ⟨events, [], rfl, scannedIn, reached⟩, listed, rfl,
        fun chunk planned id member => mem_deletePlan planned member⟩
  | delete deleting numbered =>
      rw [deleting] at read
      rcases read.concat (.pass .delete) with ⟨atScan, atQuery, queried, lake, source, doomed⟩
      exact ⟨atScan, atQuery, queried, lake, source,
        fun chunk later => doomed chunk (List.mem_cons_of_mem _ later)⟩
  | endDeletes => trivial
  | extract => trivial
  | merge merging => trivial
  | nextBatch => trivial
  | finish => trivial
  | fail => trivial

theorem readBefore_run (waiting : start.phase = .waiting) {world : World ρ σ}
    (reached : run (Reconcile.step columns sizes target) start events = some world) :
    ReadBefore columns sizes target start events world.phase := by
  refine run_history (motive := fun events world =>
    ReadBefore columns sizes target start events world.phase) ?_ ?_ reached
  · rw [waiting]
    trivial
  · intro events event middle next before read taken
    rcases step_cases taken with ⟨_, rfl, rfl⟩ | ⟨_, rfl, _, rfl⟩ | ⟨_, _, _, rfl, _, _, rfl⟩ |
      ⟨passEvent, rfl, passed⟩
    · exact read.concat _
    · exact read.concat _
    · exact read.concat _
    · exact read.stepPass before passed

end Reads

/-! ## Ids that were never in the source -/

section Unknown

variable [DecidableEq ρ] {columns : Columns ρ σ τ} {sizes : BatchSizes} {target : Target} {id : Option Int}

/-- The id is nowhere: not in the two tables, nor in rows on their way to the lake.
The last two fields matter, because an old window may still bring an id that the
source has deleted. -/
structure Unknown (columns : Columns ρ σ τ) (id : Option Int) (world : World ρ σ) : Prop where
  source : id ∉ world.source.map columns.source.id
  lake : id ∉ world.lake.map columns.lakeId
  windows : forall window, window ∈ world.windows -> id ∉ window.map columns.source.id
  staged : forall files pending, world.phase = .merging files pending ->
    forall file, file ∈ files -> id ∉ file.rows.map columns.source.id

omit [LinearOrder τ] [DecidableEq ρ] in
/-- The parts of an extract hold rows of the source. -/
theorem mem_source_of_extractMissing {source : List ρ} {index : Nat} {ids : List Int}
    {file : DataFile ρ} (part : file ∈ (extractMissing columns target source index ids).files) {row : ρ}
    (member : row ∈ file.rows) : row ∈ source := by
  have listed : row ∈ fileRows (extractMissing columns target source index ids).files :=
    List.mem_flatMap.mpr ⟨file, part, member⟩
  unfold extractMissing at listed
  rw [fileRows_extractChunkToS3] at listed
  exact List.mem_of_mem_filter (List.mem_of_mem_filter listed)

omit [LinearOrder τ] [DecidableEq ρ] in
/-- Only a merge looks at the rows that are on their way. -/
theorem Unknown.setPhase {world : World ρ σ} (unknown : Unknown columns id world) {phase : Phase ρ}
    (staged : forall files pending, phase = .merging files pending ->
      forall file, file ∈ files -> id ∉ file.rows.map columns.source.id) :
    Unknown columns id { world with phase := phase } :=
  ⟨unknown.source, unknown.lake, unknown.windows, staged⟩

omit [DecidableEq ρ] in
theorem Unknown.stepPass {world next : World ρ σ} {event : PassEvent} (unknown : Unknown columns id world)
    (taken : Reconcile.stepPass columns sizes target world event = some next) :
    Unknown columns id next := by
  cases passEffect_of_stepPass taken with
  | scan waiting => exact unknown.setPhase (by rintro files pending ⟨⟩)
  | query scanned => exact unknown.setPhase (by rintro files pending ⟨⟩)
  | delete deleting numbered =>
      refine ⟨unknown.source, ?_, unknown.windows, by rintro files pending ⟨⟩⟩
      exact fun member => unknown.lake ((mem_ids_delete numbered).mp member).1
  | endDeletes => exact unknown.setPhase (by rintro files pending ⟨⟩)
  | extract =>
      refine unknown.setPhase ?_
      rintro files pending ⟨⟩ file part listed
      rcases List.mem_map.mp listed with ⟨row, member, carries⟩
      exact unknown.source (List.mem_map.mpr ⟨row, mem_source_of_extractMissing part member, carries⟩)
  | @merge file files pending merging =>
      refine ⟨unknown.source, ?_, unknown.windows, ?_⟩
      · intro member
        rcases mem_ids_upsert.mp member with old | written
        · exact unknown.lake old
        · exact unknown.staged _ _ merging file List.mem_cons_self (mem_ids_writtenRows written)
      · rintro others later ⟨⟩ other part
        exact unknown.staged _ _ merging other (List.mem_cons_of_mem _ part)
  | nextBatch => exact unknown.setPhase (by rintro files pending ⟨⟩)
  | finish => exact unknown.setPhase (by rintro files pending ⟨⟩)
  | fail => exact unknown.setPhase (by rintro files pending ⟨⟩)

omit [LinearOrder τ] [DecidableEq ρ] in
theorem not_mem_of_subset {rows fewer : List ρ} (included : fewer ⊆ rows)
    (absent : id ∉ rows.map columns.source.id) : id ∉ fewer.map columns.source.id := by
  intro listed
  rcases List.mem_map.mp listed with ⟨row, member, carries⟩
  exact absent (List.mem_map.mpr ⟨row, included member, carries⟩)

theorem Unknown.step {world next : World ρ σ} {event : Event ρ} (unknown : Unknown columns id world)
    (absent : id ∉ next.source.map columns.source.id)
    (taken : Reconcile.step columns sizes target world event = some next) : Unknown columns id next := by
  rcases step_cases taken with ⟨rows, _, rfl⟩ | ⟨rows, _, included, rfl⟩ |
    ⟨index, window, rows, _, found, included, rfl⟩ | ⟨_, _, passed⟩
  · exact ⟨absent, unknown.lake, unknown.windows, unknown.staged⟩
  · refine ⟨unknown.source, unknown.lake, ?_, unknown.staged⟩
    intro window member
    rcases List.mem_append.mp member with old | new
    · exact unknown.windows window old
    · rw [List.mem_singleton.mp new]
      exact not_mem_of_subset included unknown.source
  · refine ⟨unknown.source, ?_, unknown.windows, unknown.staged⟩
    have apart := not_mem_of_subset included (unknown.windows window (List.mem_of_getElem? found))
    unfold mergeBatch
    split
    · exact unknown.lake
    · intro member
      rcases mem_ids_upsert.mp member with old | written
      · exact unknown.lake old
      · exact apart (mem_ids_writtenRows written)
  · exact unknown.stepPass passed

theorem Unknown.run {start last : World ρ σ} {events : List (Event ρ)} (unknown : Unknown columns id start)
    (absent : Throughout (Reconcile.step columns sizes target)
      (fun world => id ∉ world.source.map columns.source.id) start events)
    (reached : Transition.run (Reconcile.step columns sizes target) start events = some last) :
    Unknown columns id last := by
  induction events generalizing start with
  | nil =>
      cases reached
      exact unknown
  | cons event events ih =>
      rcases run_cons_eq_some.mp reached with ⟨next, taken, rest⟩
      have later := absent.2 next taken
      exact ih (unknown.step later.first taken) later rest

end Unknown

section Spares

variable [DecidableEq ρ] (columns : Columns ρ σ τ) (sizes : BatchSizes) (target : Target)

/-- The next step of the pass leaves the lake without a row of the id.  It is about
a single step, so it is not hidden by a later merge that brings the row back. -/
def LosesRows (start : World ρ σ) (events : List (Event ρ)) (event : PassEvent) (id : Option Int) : Prop :=
  Exists fun world => Exists fun next =>
    run (step columns sizes target) start events = some world ∧
      step columns sizes target world (.pass event) = some next ∧
        id ∈ world.lake.map columns.lakeId ∧ id ∉ next.lake.map columns.lakeId

/-- The id is in the source in every state from the scan of the lake on.  Its rows
may change all the while, since nothing is asked of them but the id. -/
def PresentSinceScan (start : World ρ σ) (events : List (Event ρ)) (id : Option Int) : Prop :=
  forall before after atScan, events = before ++ .pass .scan :: after ->
    run (step columns sizes target) start before = some atScan ->
      Throughout (step columns sizes target) (fun world => id ∈ world.source.map columns.source.id)
        atScan (.pass .scan :: after)

/-- The id is not known before the scan of the lake, so it is inserted later.  It
may be inserted before the query or after it, and merged by a run of another job
meanwhile. -/
def InsertedAfterScan (start : World ρ σ) (events : List (Event ρ)) (id : Option Int) : Prop :=
  Unknown columns id start ∧ forall before after, events = before ++ .pass .scan :: after ->
    Throughout (step columns sizes target) (fun world => id ∉ world.source.map columns.source.id)
      start before

variable {columns sizes target}

/-- An id whose rows a pass deletes was in the lake at the scan, and not in the
source at the later query. -/
theorem LosesRows.dead {start : World ρ σ} (waiting : start.phase = .waiting) {events : List (Event ρ)}
    {event : PassEvent} {id : Option Int} (loses : LosesRows columns sizes target start events event id) :
    Exists fun atScan : World ρ σ => Exists fun atQuery : World ρ σ =>
      QueriedIn columns sizes target start events atScan atQuery ∧
        id ∈ atScan.lake.map columns.lakeId ∧ id ∉ atQuery.source.map columns.source.id := by
  rcases loses with ⟨world, next, reached, taken, present, gone⟩
  rcases stepPass_removes taken present gone with ⟨lakeIds, sourceIds, chunk, pending, deleting, listed⟩
  have read := readBefore_run waiting reached
  rw [deleting] at read
  rcases read with ⟨atScan, atQuery, queried, lake, source, doomed⟩
  have dead := mem_deletedIds.mp (doomed chunk List.mem_cons_self id listed)
  rw [lake, source] at dead
  exact ⟨atScan, atQuery, queried, dead⟩

/-- A pass never takes a live row away: not of an id that stays in the source, and
not of an id that is new.  An id that it does take away was in the lake when that
was scanned and missing from the source when that was queried. -/
theorem reconcile_spares_live_rows (columns : Columns ρ σ τ) (sizes : BatchSizes) (target : Target)
    (start : World ρ σ) (waiting : start.phase = .waiting) (events rest : List (Event ρ))
    (event : PassEvent) (id : Option Int) :
    (LosesRows columns sizes target start events event id ->
      Exists fun atScan : World ρ σ => Exists fun atQuery : World ρ σ =>
        QueriedIn columns sizes target start events atScan atQuery ∧
          id ∈ atScan.lake.map columns.lakeId ∧ id ∉ atQuery.source.map columns.source.id) ∧
    (PresentSinceScan columns sizes target start (events ++ .pass event :: rest) id ->
      ¬ LosesRows columns sizes target start events event id) ∧
    (InsertedAfterScan columns sizes target start (events ++ .pass event :: rest) id ->
      ¬ LosesRows columns sizes target start events event id) := by
  refine ⟨fun loses => loses.dead waiting, fun present loses => ?_, fun inserted loses => ?_⟩
  · rcases loses.dead waiting with ⟨atScan, atQuery, ⟨queried, after, rfl, scanned, reached⟩, _, missing⟩
    rcases scanned with ⟨before, between, rfl, atScanReached⟩
    have throughout := present before (between ++ (.pass .query :: after ++ .pass event :: rest)) atScan
      (by simp) atScanReached
    rw [← List.cons_append] at throughout
    rcases run_append_eq_some.mp reached with ⟨middle, same, onward⟩
    cases atScanReached.symm.trans same
    exact missing (throughout.at_prefix onward)
  · rcases loses.dead waiting with ⟨atScan, atQuery, ⟨queried, after, rfl, scanned, _⟩, listed, _⟩
    rcases scanned with ⟨before, between, rfl, reached⟩
    have absent := inserted.2 before (between ++ .pass .query :: after ++ .pass event :: rest) (by simp)
    exact (inserted.1.run absent reached).lake listed

/-- While the pass waits for its query, row 2 is inserted and merged by an
incremental run; the pass deletes row 3 only. -/
theorem concurrent_pass_spares_live_rows :
    let sizes : BatchSizes :=
      { delete := 1, fetch := 2, insert := 2, delete_pos := by decide, insert_pos := by decide }
    let start : World (Int × Int × Nat) (Int × Int × Nat) :=
      { source := [(1, 3, 0)], lake := [(1, 3, 0), (3, 3, 0)], windows := [], phase := .waiting }
    let events : List (Event (Int × Int × Nat)) :=
      [.pass .scan, .commit [(1, 3, 0), (2, 4, 1)], .extractWindow [(2, 4, 1)], .mergeBatch 0 [(2, 4, 1)],
        .pass .query]
    LosesRows sampleColumns sizes sampleTarget start events .delete (some 3) ∧
      (Exists fun atScan => Exists fun atQuery =>
        QueriedIn sampleColumns sizes sampleTarget start events atScan atQuery ∧
          some 3 ∈ atScan.lake.map sampleColumns.lakeId ∧
            some 3 ∉ atQuery.source.map sampleColumns.source.id) ∧
      ¬ LosesRows sampleColumns sizes sampleTarget start events .delete (some 2) := by
  intro sizes start events
  have spares (id : Option Int) :=
    reconcile_spares_live_rows sampleColumns sizes sampleTarget start rfl events [] .delete id
  have loses : LosesRows sampleColumns sizes sampleTarget start events .delete (some 3) :=
    ⟨_, _, rfl, rfl, by decide, by decide⟩
  have unknown : Unknown sampleColumns (some 2) start :=
    ⟨by decide, by decide, by rintro window ⟨⟩, by rintro files pending ⟨⟩⟩
  have inserted : InsertedAfterScan sampleColumns sizes sampleTarget start (events ++ [.pass .delete])
      (some 2) := by
    refine ⟨unknown, fun before after split => ?_⟩
    cases before with
    | nil => exact unknown.source
    | cons first before =>
        have again : Event.pass .scan ∈ (events ++ [Event.pass .delete]).tail := by
          rw [split]
          simp
        exact absurd again (by decide)
  exact ⟨loses, (spares (some 3)).1 loses, (spares (some 2)).2.2 inserted⟩

end Spares

end Reconcile
end WarehouseSync

import WarehouseSync.Extract.CopyWorker
import WarehouseSync.Load.Merge

namespace WarehouseSync
namespace Reconcile

open Chunker CopyWorker KeyedRows Merge

/-!
# Primary-key reconciliation (`load/reconcile.py`)

One pass compares the ids of the source with the ids of the lake, deletes the
lake rows of ids that are only there, and extracts and merges the source rows of
ids that are missing.  Everything is done in batches, and the lake table is
loaded again between them; since every batch acts on its own ids only, what the
pass leaves at an id can be read off the two sets of ids.
-/

variable {ρ σ τ : Type}

/-- `_DELETE_BATCH`, `_FETCH_BATCH` and `_INSERT_BATCH`.  They are fields rather
than constants because nothing that is proved about the pass depends on their
values, except that slices are not empty. -/
structure BatchSizes where
  delete : Nat
  fetch : Nat
  insert : Nat
  delete_pos : 0 < delete
  insert_pos : 0 < insert

def batchSizes : BatchSizes :=
  { delete := 5000, fetch := 200000, insert := 10000, delete_pos := by decide, insert_pos := by decide }

/-- The columns of the source table and of its lake table.  The id is an integer on
both sides, so converting it keeps its value, which is what makes ids of the two
comparable. -/
structure Columns (ρ σ τ : Type) where
  source : SourceColumns ρ
  updatedAt : Option (ρ -> Option τ)
  align : ρ -> σ
  lakeId : σ -> Option Int
  lakeId_align : forall row : ρ, lakeId (align row) = source.id row

def Columns.staged (columns : Columns ρ σ τ) : StagedColumns ρ Int τ :=
  { id := some columns.source.id, updatedAt := columns.updatedAt }

/-- The table that is reconciled and where its missing rows are staged.  The token
is the second in which the rows are added, which keeps the staging paths of two
passes apart. -/
structure Target where
  schema : String
  table : String
  bucket : String
  rawPrefix : String
  settings : Settings
  token : Nat

/-- Lake ids that are not in the source.  `is_in` matches a NULL with a NULL, so a
NULL id of the lake is among them only if no source row has one. -/
def deletedIds (lakeIds sourceIds : List (Option Int)) : List (Option Int) :=
  lakeIds.filter (fun id => !sourceIds.contains id)

/-- Source ids that are not in the lake, by the same `is_in`.  An id that occurs in
several source rows is listed as often. -/
def missingIds (lakeIds sourceIds : List (Option Int)) : List (Option Int) :=
  sourceIds.filter (fun id => !lakeIds.contains id)

theorem mem_deletedIds {lakeIds sourceIds : List (Option Int)} {id : Option Int} :
    id ∈ deletedIds lakeIds sourceIds ↔ id ∈ lakeIds ∧ id ∉ sourceIds := by
  simp [deletedIds]

theorem mem_missingIds {lakeIds sourceIds : List (Option Int)} {id : Option Int} :
    id ∈ missingIds lakeIds sourceIds ↔ id ∈ sourceIds ∧ id ∉ lakeIds := by
  simp [missingIds]

/-- The literals of an `IN`; a NULL among them is an error.  PyIceberg makes a
literal of every value, and there is none for None. -/
def literals (ids : List (Option Int)) : Option (List Int) :=
  if ids.contains none then none else some (ids.filterMap (fun id => id))

/-- The lake table and the number of rows that were handled so far.  The table is
part of it because every batch commits: an error of a later one does not undo it. -/
structure Progress (σ : Type) where
  lake : List σ
  count : Nat

/-- `tbl.delete(In(pk, chunk))`.  It counts the ids of the slice, not the rows that
the delete removes, as the summary of the pass does. -/
def deleteBatch (columns : Columns ρ σ τ) (progress : Progress σ) (chunk : List (Option Int)) :
    Option (Progress σ) := do
  let doomed <- literals chunk
  some { lake := delete columns.lakeId doomed progress.lake, count := progress.count + chunk.length }

def deleteBatches (columns : Columns ρ σ τ) (sizes : BatchSizes) (lake : List σ)
    (deleted : List (Option Int)) : Option (Progress σ) :=
  (Splitting.slices sizes.delete deleted).foldlM (deleteBatch columns) { lake := lake, count := 0 }

/-- The `COPY` of the rows with `id IN (...)`, in a chunk without any other
predicate.  It reads the source anew, so a row that is gone by then is not among its
rows and one that has changed comes in its new version. -/
def extractMissing (columns : Columns ρ σ τ) (target : Target) (source : List ρ) (index : Nat)
    (ids : List Int) : ChunkResult ρ :=
  extractChunkToS3 columns.source target.settings target.bucket target.rawPrefix
    ("reconcile/" ++ target.schema ++ "." ++ target.table ++ "/insert_" ++ toString target.token)
    { fullChunk target.schema target.table with chunkId := index }
    (source.filter (matchesIn columns.source.id ids))

/-- Each part is loaded and merged by itself, in the order in which the copy wrote
the parts. -/
def mergeParts (columns : Columns ρ σ τ) [LinearOrder τ] (lake : List σ) (files : List (DataFile ρ)) :
    List σ :=
  files.foldl (fun table file =>
    (mergeArrowTable columns.staged columns.align columns.lakeId table file.rows).lake) lake

/-- One batch of `_add_missing_rows`: a slice of the missing ids is copied under its
own index and merged before the next slice is read. -/
def addBatch (columns : Columns ρ σ τ) [LinearOrder τ] (target : Target) (source : List ρ)
    (progress : Progress σ) (batch : List (Option Int) × Nat) : Option (Progress σ) := do
  let ids <- literals batch.1
  let res := extractMissing columns target source batch.2 ids
  some { lake := mergeParts columns progress.lake res.files, count := progress.count + res.rows }

def addMissingRows (columns : Columns ρ σ τ) [LinearOrder τ] (sizes : BatchSizes) (target : Target)
    (source : List ρ) (lake : List σ) (missing : List (Option Int)) : Option (Progress σ) :=
  (Splitting.slices sizes.insert missing).zipIdx.foldlM (addBatch columns target source)
    { lake := lake, count := 0 }

/-- Step 1: lake keys that are not in the source.  An empty lake is not even
compared, and when nothing is to be deleted there is no commit. -/
def deleteAbsent (columns : Columns ρ σ τ) (sizes : BatchSizes) (lake : List σ)
    (lakeIds sourceIds : List (Option Int)) : Option (Progress σ) :=
  if lakeIds.length ≠ 0 then deleteBatches columns sizes lake (deletedIds lakeIds sourceIds)
  else some { lake := lake, count := 0 }

/-- Step 2: source keys that are not in the lake.  It works with the keys that were
read before step 1, which has only deleted keys that are not in the source. -/
def addAbsent (columns : Columns ρ σ τ) [LinearOrder τ] (sizes : BatchSizes) (target : Target)
    (source : List ρ) (lake : List σ) (lakeIds sourceIds : List (Option Int)) : Option (Progress σ) :=
  if sourceIds.length ≠ 0 ∧ missingIds lakeIds sourceIds ≠ [] then
    addMissingRows columns sizes target source lake (missingIds lakeIds sourceIds)
  else some { lake := lake, count := 0 }

/-- The lake table after the pass and the summary it returns.  The two row counts
are those of the scans, from before the pass has changed anything. -/
structure Summary (σ : Type) where
  lake : List σ
  lakeRows : Nat
  sourceRows : Nat
  deleted : Nat
  added : Nat

def reconcileTable (columns : Columns ρ σ τ) [LinearOrder τ] (sizes : BatchSizes) (target : Target)
    (source : List ρ) (lake : List σ) : Option (Summary σ) := do
  let lakeIds := lake.map columns.lakeId
  let sourceIds := (Splitting.batches sizes.fetch (source.map columns.source.id)).flatten
  let kept <- deleteAbsent columns sizes lake lakeIds sourceIds
  let grown <- addAbsent columns sizes target source kept.lake lakeIds sourceIds
  some { lake := grown.lake, lakeRows := lakeIds.length, sourceRows := sourceIds.length
         deleted := kept.count, added := grown.count }

/-! ## What the batches leave at an id -/

section Batches

variable {columns : Columns ρ σ τ}

theorem literals_eq_some_iff {ids : List (Option Int)} {numbers : List Int} :
    literals ids = some numbers ↔ none ∉ ids ∧ ids.filterMap (fun id => id) = numbers := by
  unfold literals
  split
  · rename_i null
    exact iff_of_false nofun (fun both => both.1 (List.contains_iff_mem.mp null))
  · rename_i present
    rw [List.contains_iff_mem] at present
    simp [present]

theorem literals_eq {ids : List (Option Int)} (present : none ∉ ids) :
    literals ids = some (ids.filterMap (fun id => id)) :=
  literals_eq_some_iff.mpr ⟨present, rfl⟩

theorem mem_literals {ids : List (Option Int)} {number : Int} :
    number ∈ ids.filterMap (fun id => id) ↔ some number ∈ ids := by
  simp

/-- A delete leaves no row at its ids and does not touch other rows. -/
theorem rowsAt_deleteBatch {chunk : List (Option Int)} (present : none ∉ chunk)
    (progress : Progress σ) : Exists fun next : Progress σ =>
      deleteBatch columns progress chunk = some next ∧ forall value : Option Int,
        rowsAt columns.lakeId value next.lake =
          if value ∈ chunk then [] else rowsAt columns.lakeId value progress.lake := by
  refine ⟨{ lake := delete columns.lakeId (chunk.filterMap (fun id => id)) progress.lake
            count := progress.count + chunk.length }, ?_, ?_⟩
  · rw [deleteBatch, literals_eq present]
    rfl
  · intro value
    cases value with
    | none => rw [if_neg present, rowsAt_delete_none]
    | some number => simp only [rowsAt_delete_some, mem_literals]

variable (columns) in
theorem rowsAt_deleteChunks {chunks : List (List (Option Int))} (present : none ∉ chunks.flatten)
    (progress : Progress σ) : Exists fun next : Progress σ =>
      chunks.foldlM (deleteBatch columns) progress = some next ∧ forall value : Option Int,
        rowsAt columns.lakeId value next.lake =
          if value ∈ chunks.flatten then [] else rowsAt columns.lakeId value progress.lake := by
  induction chunks generalizing progress with
  | nil => exact ⟨progress, rfl, fun value => rfl⟩
  | cons chunk chunks ih =>
      rw [List.flatten_cons, List.mem_append, not_or] at present
      rcases rowsAt_deleteBatch present.1 progress with ⟨middle, deleted, here⟩
      rcases ih present.2 middle with ⟨next, rest, later⟩
      refine ⟨next, ?_, ?_⟩
      · rw [List.foldlM_cons, deleted]
        exact rest
      · intro value
        rw [later, here, List.flatten_cons]
        by_cases first : value ∈ chunk
        · simp [first]
        · simp [first]

variable [LinearOrder τ]

theorem mem_dedupe {staged : List ρ} {row : ρ} (member : row ∈ columns.staged.dedupe staged) :
    row ∈ staged := by
  unfold StagedColumns.dedupe Columns.staged at member
  cases updated : columns.updatedAt with
  | none =>
      rw [updated] at member
      exact member
  | some ts =>
      rw [updated] at member
      exact mem_dedupeLatest member

/-- Deduplicating a table without repeated ids keeps its rows at every id. -/
theorem rowsAt_dedupe {staged : List ρ} (unique : UniqueKeys columns.source.id staged) (number : Int) :
    rowsAt columns.source.id (some number) (columns.staged.dedupe staged) =
      rowsAt columns.source.id (some number) staged := by
  unfold StagedColumns.dedupe Columns.staged
  cases columns.updatedAt with
  | none => rfl
  | some ts =>
      have kept := uniqueKeys_dedupeLatest columns.source.id ts staged
      exact kept.rowsAt_congr unique (fun row carries => ⟨mem_dedupeLatest, fun member =>
        mem_dedupeLatest_of_uniqueKeys unique member carries⟩)

/-- Merging a part without repeated ids leaves its aligned row at each of them. -/
theorem rowsAt_mergePart {part : List ρ} (unique : UniqueKeys columns.source.id part)
    (numbered : none ∉ part.map columns.source.id) (table : List σ) (value : Option Int) :
    rowsAt columns.lakeId value
        (mergeArrowTable columns.staged columns.align columns.lakeId table part).lake =
      if value ∈ part.map columns.source.id then
        (rowsAt columns.source.id value part).map columns.align
      else rowsAt columns.lakeId value table := by
  let kept := columns.staged.dedupe part
  have landed (any : Option Int) : rowsAt columns.lakeId any (kept.map columns.align) =
      (rowsAt columns.source.id any kept).map columns.align :=
    rowsAt_map columns.align columns.lakeId_align any kept
  change rowsAt columns.lakeId value (upsert columns.lakeId table (kept.map columns.align)) = _
  cases value with
  | none =>
      have nothing : rowsAt columns.source.id none kept = [] := by
        rw [List.eq_nil_iff_forall_not_mem]
        intro row member
        have parts := mem_rowsAt.mp member
        exact numbered (List.mem_map.mpr ⟨row, mem_dedupe parts.1, parts.2⟩)
      rw [rowsAt_upsert_none, landed, nothing, if_neg numbered, List.map_nil, List.append_nil]
  | some number =>
      have listed : number ∈ keys columns.lakeId (kept.map columns.align) ↔
          some number ∈ part.map columns.source.id := by
        rw [mem_keys_iff_rowsAt, landed, rowsAt_dedupe unique, ne_eq, List.map_eq_nil_iff, ← ne_eq,
          ← mem_keys_iff_rowsAt, mem_keys, List.mem_map]
      rw [rowsAt_upsert_some, landed, rowsAt_dedupe unique]
      simp only [listed]

/-- The parts of a batch are one merge of all their rows. -/
theorem rowsAt_mergeParts {files : List (DataFile ρ)} (unique : UniqueKeys columns.source.id (fileRows files))
    (numbered : none ∉ (fileRows files).map columns.source.id) (table : List σ) (value : Option Int) :
    rowsAt columns.lakeId value (mergeParts columns table files) =
      if value ∈ (fileRows files).map columns.source.id then
        (rowsAt columns.source.id value (fileRows files)).map columns.align
      else rowsAt columns.lakeId value table := by
  unfold mergeParts
  induction files generalizing table with
  | nil => rfl
  | cons file files ih =>
      have whole : fileRows (file :: files) = file.rows ++ fileRows files := rfl
      rw [whole] at unique numbered ⊢
      rw [List.map_append, List.mem_append, not_or] at numbered
      rcases uniqueKeys_append.mp unique with ⟨hereUnique, restUnique, apart⟩
      rw [List.foldl_cons, ih restUnique numbered.2, rowsAt_mergePart hereUnique numbered.1,
        List.map_append, rowsAt_append, List.map_append]
      by_cases later : value ∈ (fileRows files).map columns.source.id
      · have first : value ∉ file.rows.map columns.source.id := by
          intro member
          cases value with
          | none => exact numbered.1 member
          | some number =>
              exact apart number (mem_keys.mpr (List.mem_map.mp member)) (mem_keys.mpr (List.mem_map.mp later))
        rw [if_pos later, if_pos (List.mem_append_right _ later), rowsAt_eq_nil_iff.mpr first]
        rfl
      · rw [if_neg later, rowsAt_eq_nil_iff.mpr later, List.map_nil, List.append_nil]
        simp only [List.mem_append, later, or_false]

/-- A batch of missing ids brings the aligned source row of each of them. -/
theorem rowsAt_addBatch (target : Target) {source : List ρ} (unique : UniqueKeys columns.source.id source)
    {batch : List (Option Int)} (present : none ∉ batch)
    (known : forall id, id ∈ batch -> id ∈ source.map columns.source.id) (index : Nat)
    (progress : Progress σ) : Exists fun next : Progress σ =>
      addBatch columns target source progress (batch, index) = some next ∧ forall value : Option Int,
        rowsAt columns.lakeId value next.lake =
          if value ∈ batch then (rowsAt columns.source.id value source).map columns.align
          else rowsAt columns.lakeId value progress.lake := by
  let ids := batch.filterMap (fun id => id)
  let res := extractMissing columns target source index ids
  refine ⟨{ lake := mergeParts columns progress.lake res.files, count := progress.count + res.rows },
    ?_, ?_⟩
  · rw [addBatch, literals_eq present]
    rfl
  have selected : fileRows res.files = source.filter (matchesIn columns.source.id ids) := by
    apply (fileRows_extractChunkToS3 _ _ _ _ _ _ _).trans
    rw [List.filter_eq_self]
    intro row _
    rfl
  have at_ids (value : Option Int) : rowsAt columns.source.id value (fileRows res.files) =
      if value ∈ batch then rowsAt columns.source.id value source else [] := by
    rw [selected]
    cases value with
    | none => rw [if_neg present, rowsAt_none_filter_matchesIn]
    | some number => simp only [rowsAt_filter_matchesIn, ids, mem_literals]
  have brought (value : Option Int) :
      value ∈ (fileRows res.files).map columns.source.id ↔ value ∈ batch := by
    rw [← not_iff_not, ← rowsAt_eq_nil_iff, at_ids]
    by_cases listed : value ∈ batch
    · rw [if_pos listed, rowsAt_eq_nil_iff, not_iff_not]
      exact iff_of_true (known value listed) listed
    · rw [if_neg listed]
      exact iff_of_true rfl listed
  have fileUnique : UniqueKeys columns.source.id (fileRows res.files) := by
    rw [selected]
    exact unique.sublist List.filter_sublist
  have fileNumbered : none ∉ (fileRows res.files).map columns.source.id :=
    fun member => present ((brought none).mp member)
  intro value
  change rowsAt columns.lakeId value (mergeParts columns progress.lake res.files) = _
  rw [rowsAt_mergeParts fileUnique fileNumbered, at_ids]
  by_cases listed : value ∈ batch
  · rw [if_pos ((brought value).mpr listed), if_pos listed, if_pos listed]
  · rw [if_neg (fun member => listed ((brought value).mp member)), if_neg listed]

theorem rowsAt_addBatches (target : Target) {source : List ρ} (unique : UniqueKeys columns.source.id source)
    {batches : List (List (Option Int) × Nat)} (present : forall batch, batch ∈ batches -> none ∉ batch.1)
    (known : forall batch, batch ∈ batches -> forall id, id ∈ batch.1 -> id ∈ source.map columns.source.id)
    (progress : Progress σ) : Exists fun next : Progress σ =>
      batches.foldlM (addBatch columns target source) progress = some next ∧ forall value : Option Int,
        rowsAt columns.lakeId value next.lake =
          if value ∈ (batches.map Prod.fst).flatten then
            (rowsAt columns.source.id value source).map columns.align
          else rowsAt columns.lakeId value progress.lake := by
  induction batches generalizing progress with
  | nil => exact ⟨progress, rfl, fun value => rfl⟩
  | cons batch batches ih =>
      rcases batch with ⟨batch, index⟩
      rcases rowsAt_addBatch target unique (present _ List.mem_cons_self) (known _ List.mem_cons_self) index
        progress with ⟨middle, added, here⟩
      rcases ih (fun batch member => present batch (List.mem_cons_of_mem _ member))
        (fun batch member => known batch (List.mem_cons_of_mem _ member)) middle with ⟨next, rest, later⟩
      refine ⟨next, ?_, ?_⟩
      · rw [List.foldlM_cons, added]
        exact rest
      · intro value
        rw [later, here, List.map_cons, List.flatten_cons]
        by_cases again : value ∈ (batches.map Prod.fst).flatten
        · rw [if_pos again, if_pos (List.mem_append_right _ again)]
        · simp only [List.mem_append, again, or_false, if_false]

end Batches

/-! ## The pass -/

section Pass

variable {columns : Columns ρ σ τ}

/-- The loop would not do anything where it is skipped. -/
theorem deleteAbsent_eq (sizes : BatchSizes) (lake : List σ) (lakeIds sourceIds : List (Option Int)) :
    deleteAbsent columns sizes lake lakeIds sourceIds =
      deleteBatches columns sizes lake (deletedIds lakeIds sourceIds) := by
  unfold deleteAbsent
  split
  · rfl
  · rename_i empty
    rw [List.length_eq_zero_iff.mp (not_not.mp empty)]
    rfl

/-- The first loop leaves the lake rows of the ids that are in the source. -/
theorem rowsAt_deleteBatches (source : List ρ) {lake : List σ} (sizes : BatchSizes)
    (stored : none ∉ lake.map columns.lakeId) : Exists fun kept : Progress σ =>
      deleteBatches columns sizes lake
          (deletedIds (lake.map columns.lakeId) (source.map columns.source.id)) = some kept ∧
        forall value : Option Int, rowsAt columns.lakeId value kept.lake =
          if value ∈ source.map columns.source.id then rowsAt columns.lakeId value lake else [] := by
  have cut := Splitting.flatten_slices sizes.delete_pos
    (deletedIds (lake.map columns.lakeId) (source.map columns.source.id))
  have present : none ∉ (Splitting.slices sizes.delete
      (deletedIds (lake.map columns.lakeId) (source.map columns.source.id))).flatten := by
    rw [cut]
    exact fun member => stored (mem_deletedIds.mp member).1
  rcases rowsAt_deleteChunks columns present { lake := lake, count := 0 } with
    ⟨kept, deleted, left⟩
  refine ⟨kept, deleted, fun value => ?_⟩
  rw [left, cut]
  by_cases known : value ∈ source.map columns.source.id
  · rw [if_pos known, if_neg (fun member => (mem_deletedIds.mp member).2 known)]
  · rw [if_neg known]
    by_cases listed : value ∈ lake.map columns.lakeId
    · rw [if_pos (mem_deletedIds.mpr ⟨listed, known⟩)]
    · rw [rowsAt_eq_nil_iff.mpr listed, ite_self]

variable [LinearOrder τ]

theorem addAbsent_eq (sizes : BatchSizes) (target : Target) (source : List ρ) (lake : List σ)
    (lakeIds sourceIds : List (Option Int)) :
    addAbsent columns sizes target source lake lakeIds sourceIds =
      addMissingRows columns sizes target source lake (missingIds lakeIds sourceIds) := by
  unfold addAbsent
  split
  · rfl
  · rename_i skipped
    have none : missingIds lakeIds sourceIds = [] := by
      by_contra some
      apply skipped
      refine ⟨fun empty => ?_, some⟩
      rw [List.length_eq_zero_iff.mp empty] at some
      exact some rfl
    rw [none]
    rfl

/-- The second loop writes the rows of the ids that were not in the lake. -/
theorem rowsAt_addMissingRows {source : List ρ} (unique : UniqueKeys columns.source.id source)
    (numbered : none ∉ source.map columns.source.id) (sizes : BatchSizes) (target : Target)
    (lakeIds : List (Option Int)) (lake : List σ) : Exists fun grown : Progress σ =>
      addMissingRows columns sizes target source lake
          (missingIds lakeIds (source.map columns.source.id)) = some grown ∧
        forall value : Option Int, rowsAt columns.lakeId value grown.lake =
          if value ∈ missingIds lakeIds (source.map columns.source.id) then
            (rowsAt columns.source.id value source).map columns.align
          else rowsAt columns.lakeId value lake := by
  have cut := Splitting.flatten_slices sizes.insert_pos
    (missingIds lakeIds (source.map columns.source.id))
  have inSource : forall batch,
      batch ∈ (Splitting.slices sizes.insert (missingIds lakeIds (source.map columns.source.id))).zipIdx ->
        forall id, id ∈ batch.1 -> id ∈ source.map columns.source.id := by
    intro batch member id listed
    have piece := List.fst_mem_of_mem_zipIdx member
    have missing := cut ▸ List.mem_flatten.mpr ⟨batch.1, piece, listed⟩
    exact (mem_missingIds.mp missing).1
  rcases rowsAt_addBatches target unique
      (fun batch member inBatch => numbered (inSource batch member none inBatch)) inSource
      { lake := lake, count := 0 } with ⟨grown, added, left⟩
  refine ⟨grown, added, fun value => ?_⟩
  rw [left, List.zipIdx_map_fst, cut]

/-- What one pass leaves at an id is decided by the two sets of ids. -/
theorem rowsAt_reconcileTable {source : List ρ} {lake : List σ} (sizes : BatchSizes) (target : Target)
    (unique : UniqueKeys columns.source.id source) (numbered : none ∉ source.map columns.source.id)
    (stored : none ∉ lake.map columns.lakeId) : Exists fun summary : Summary σ =>
      reconcileTable columns sizes target source lake = some summary ∧
        forall value : Option Int, rowsAt columns.lakeId value summary.lake =
          if value ∈ lake.map columns.lakeId then
            if value ∈ source.map columns.source.id then rowsAt columns.lakeId value lake else []
          else (rowsAt columns.source.id value source).map columns.align := by
  rcases rowsAt_deleteBatches source sizes stored with ⟨kept, deleted, left⟩
  rcases rowsAt_addMissingRows unique numbered sizes target (lake.map columns.lakeId) kept.lake with
    ⟨grown, added, brought⟩
  rw [← deleteAbsent_eq] at deleted
  rw [← addAbsent_eq] at added
  refine ⟨{ lake := grown.lake, lakeRows := (lake.map columns.lakeId).length
            sourceRows := (source.map columns.source.id).length
            deleted := kept.count, added := grown.count }, ?_, ?_⟩
  · unfold reconcileTable
    simp only [Splitting.flatten_batches, deleted, added, Option.bind_eq_bind, Option.bind_some]
  intro value
  change rowsAt columns.lakeId value grown.lake = _
  rw [brought, left]
  by_cases listed : value ∈ lake.map columns.lakeId
  · rw [if_pos listed, if_neg (fun member => (mem_missingIds.mp member).2 listed)]
  · rw [if_neg listed]
    by_cases known : value ∈ source.map columns.source.id
    · rw [if_pos (mem_missingIds.mpr ⟨known, listed⟩)]
    · rw [if_neg (fun member => known (mem_missingIds.mp member).1), if_neg known,
        rowsAt_eq_nil_iff.mpr known, List.map_nil]

end Pass

/-- Rows with an id, a time and a value, which the lake keeps as they are. -/
def sampleColumns : Columns (Int × Int × Nat) (Int × Int × Nat) Int :=
  { source := { id := fun row => some row.1, timestamp := fun _ _ row => some row.2.1 }
    updatedAt := some (fun row => some row.2.1)
    align := fun row => row
    lakeId := fun row => some row.1
    lakeId_align := fun _ => rfl }

def sampleTarget : Target :=
  { schema := "public", table := "events", bucket := "lake", rawPrefix := "raw"
    settings := { extractRowsPerChunk := 2, extractRowGroupRows := 1 }, token := 7 }

end Reconcile
end WarehouseSync

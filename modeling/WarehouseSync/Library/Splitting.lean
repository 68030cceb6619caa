import Mathlib.Data.List.Basic
import Mathlib.Data.List.Count
import Mathlib.Tactic.Ring

namespace WarehouseSync
namespace Splitting

/-!
# Cutting streams into batches and integer ranges into half-open pieces

Both cuts are loops with an accumulator.  A batch loop flushes its buffer as
soon as it is full and once more at the end of the stream; a range loop walks
from the lower bound in fixed steps and clips the last piece.  What their users
need is that nothing is lost or repeated, for every way the boundaries can fall.
-/

universe u

variable {ρ : Type u}

/-- Buffer the rows and flush whenever the buffer reaches the batch size.  The rest
of the buffer is flushed at the end of the stream, unless it is empty. -/
def batchesFrom (size : Nat) : List ρ -> List ρ -> List (List ρ)
  | buffer, [] => if buffer.isEmpty then [] else [buffer]
  | buffer, row :: rows =>
      if size ≤ (buffer ++ [row]).length then (buffer ++ [row]) :: batchesFrom size [] rows
      else batchesFrom size (buffer ++ [row]) rows

/-- The batches of a stream, starting from an empty buffer. -/
def batches (size : Nat) (rows : List ρ) : List (List ρ) :=
  batchesFrom size [] rows

theorem flatten_batchesFrom (size : Nat) (buffer rows : List ρ) :
    (batchesFrom size buffer rows).flatten = buffer ++ rows := by
  induction rows generalizing buffer with
  | nil =>
      rw [batchesFrom]
      cases buffer <;> simp
  | cons row rows ih =>
      rw [batchesFrom]
      by_cases full : size ≤ (buffer ++ [row]).length
      · rw [if_pos full, List.flatten_cons, ih]
        simp
      · rw [if_neg full, ih]
        simp

/-- The batches are the stream, cut into pieces. -/
@[simp] theorem flatten_batches (size : Nat) (rows : List ρ) :
    (batches size rows).flatten = rows :=
  flatten_batchesFrom size [] rows

/-- Slices of the given size from the front.  The counter bounds the number of
rounds, which is needed for a size of zero. -/
def slicesFrom (size : Nat) : Nat -> List ρ -> List (List ρ)
  | 0, _ => []
  | rounds + 1, rows =>
      if rows.isEmpty then [] else rows.take size :: slicesFrom size rounds (rows.drop size)

/-- `rows[i:i + size]` for every `i` in `range(0, len(rows), size)`. -/
def slices (size : Nat) (rows : List ρ) : List (List ρ) :=
  slicesFrom size rows.length rows

theorem flatten_slicesFrom {size : Nat} (positive : 0 < size) (rounds : Nat) (rows : List ρ)
    (enough : rows.length ≤ rounds) : (slicesFrom size rounds rows).flatten = rows := by
  induction rounds generalizing rows with
  | zero => rw [List.length_eq_zero_iff.mp (Nat.le_zero.mp enough), slicesFrom, List.flatten_nil]
  | succ rounds ih =>
      cases rows with
      | nil => rfl
      | cons row rows =>
          have fewer : ((row :: rows).drop size).length ≤ rounds := by
            rw [List.length_drop]
            simp only [List.length_cons] at enough ⊢
            omega
          rw [slicesFrom, List.isEmpty_cons, if_neg Bool.false_ne_true, List.flatten_cons,
            ih _ fewer, List.take_append_drop]

/-- The slices are the list, cut into pieces. -/
theorem flatten_slices {size : Nat} (positive : 0 < size) (rows : List ρ) :
    (slices size rows).flatten = rows :=
  flatten_slicesFrom positive rows.length rows (le_refl _)

/-! ## Half-open integer ranges -/

/-- Walk from `current` to `last` in steps, clipping the final piece at `last + 1`.
The counter bounds the number of rounds. -/
def rangesFrom (step last : Int) : Nat -> Int -> List (Int × Int)
  | 0, _ => []
  | rounds + 1, current =>
      if current ≤ last then
        (current, if current + step ≤ last then current + step else last + 1) ::
          rangesFrom step last rounds (current + step)
      else []

/-- The pieces of the closed interval from `first` to `last`.  A step is at
least one, so there are no more rounds than integers to cover. -/
def ranges (first last step : Int) : List (Int × Int) :=
  rangesFrom step last (last + 1 - first).toNat first

/-- Membership in a half-open range. -/
def inRange (value : Int) (range : Int × Int) : Bool :=
  decide (range.1 ≤ value) && decide (value < range.2)

theorem countP_rangesFrom {step last : Int} (positive : 1 ≤ step) (value : Int) (rounds : Nat)
    (current : Int) (enough : (last + 1 - current).toNat ≤ rounds) :
    (rangesFrom step last rounds current).countP (inRange value) =
      if current ≤ value ∧ value ≤ last then 1 else 0 := by
  induction rounds generalizing current with
  | zero =>
      have outside : ¬ (current ≤ value ∧ value ≤ last) := by omega
      rw [if_neg outside]
      rfl
  | succ rounds ih =>
      rw [rangesFrom]
      by_cases more : current ≤ last
      · rw [if_pos more, List.countP_cons, ih (current + step) (by omega)]
        simp only [inRange, Bool.and_eq_true, decide_eq_true_eq]
        by_cases clipped : current + step ≤ last
        · rw [if_pos clipped]
          split <;> split <;> split <;> omega
        · rw [if_neg clipped]
          split <;> split <;> split <;> omega
      · have outside : ¬ (current ≤ value ∧ value ≤ last) := by omega
        rw [if_neg more, if_neg outside]
        rfl

/-- Every integer of the interval lies in exactly one piece, and no other
integer lies in any. -/
theorem countP_ranges {first last step : Int} (positive : 1 ≤ step) (value : Int) :
    (ranges first last step).countP (inRange value) =
      if first ≤ value ∧ value ≤ last then 1 else 0 :=
  countP_rangesFrom positive value _ first (Nat.le_refl _)

/-- The pieces are non-empty, follow each other without a gap or an overlap, and
cover what lies between `lo` and `hi`.  The fields are what users of a tiling need;
they are proved from the recursion below. -/
structure Tiling (lo hi : Int) (pieces : List (Int × Int)) : Prop where
  nonempty : forall piece, piece ∈ pieces -> piece.1 < piece.2
  consecutive : pieces.IsChain (fun left right => left.2 = right.1)
  disjoint : pieces.Pairwise (fun left right => left.2 ≤ right.1)
  union : forall value,
    (Exists fun piece => piece ∈ pieces ∧ inRange value piece = true) ↔ lo ≤ value ∧ value < hi

/-- The same as a recursion that carries the lower end along.  It follows the walk
that makes the pieces, so it is what the inductions use. -/
def TilesFrom (hi : Int) : Int -> List (Int × Int) -> Prop
  | lo, [] => lo = hi
  | lo, piece :: pieces => piece.1 = lo ∧ piece.1 < piece.2 ∧ TilesFrom hi piece.2 pieces

theorem inRange_iff (value : Int) (piece : Int × Int) :
    inRange value piece = true ↔ piece.1 ≤ value ∧ value < piece.2 := by
  rw [inRange, Bool.and_eq_true, decide_eq_true_eq, decide_eq_true_eq]

/-- Pieces that follow each other stay between the ends. -/
theorem TilesFrom.within {hi lo : Int} {pieces : List (Int × Int)} (tiles : TilesFrom hi lo pieces) :
    lo ≤ hi ∧ forall piece, piece ∈ pieces -> lo ≤ piece.1 := by
  induction pieces generalizing lo with
  | nil =>
      refine ⟨le_of_eq tiles, ?_⟩
      intro _ none
      cases none
  | cons first pieces ih =>
      rcases tiles with ⟨rfl, positive, rest⟩
      have later := ih rest
      refine ⟨by omega, ?_⟩
      intro piece member
      rcases List.mem_cons.mp member with rfl | listed
      · exact le_refl _
      · have after := later.2 piece listed
        omega

theorem TilesFrom.tiling {hi lo : Int} {pieces : List (Int × Int)} (tiles : TilesFrom hi lo pieces) :
    Tiling lo hi pieces := by
  induction pieces generalizing lo with
  | nil =>
      have same : lo = hi := tiles
      refine ⟨?_, List.IsChain.nil, List.Pairwise.nil, fun value => ?_⟩
      · intro _ none
        cases none
      constructor
      · rintro ⟨_, none, _⟩
        cases none
      · omega
  | cons first pieces ih =>
      rcases tiles with ⟨rfl, positive, rest⟩
      have later := ih rest
      have bounds := rest.within
      refine ⟨?_, ?_, List.pairwise_cons.mpr ⟨bounds.2, later.disjoint⟩, fun value => ?_⟩
      · exact List.forall_mem_cons.mpr ⟨positive, later.nonempty⟩
      · cases pieces with
        | nil => exact List.IsChain.singleton first
        | cons second pieces => exact List.IsChain.cons_cons rest.1.symm later.consecutive
      · have others := later.union value
        rw [List.exists_mem_cons_iff (fun piece => inRange value piece = true), others, inRange_iff]
        omega

/-- Past the interval the range loop adds nothing. -/
theorem rangesFrom_of_lt {step last : Int} {rounds : Nat} {current : Int} (beyond : last < current) :
    rangesFrom step last rounds current = [] := by
  cases rounds with
  | zero => rfl
  | succ rounds => rw [rangesFrom, if_neg (not_le.mpr beyond)]

/-- Enough rounds of the range loop leave nothing out. -/
theorem tilesFrom_rangesFrom {step last : Int} (positive : 1 ≤ step) (rounds : Nat) (current : Int)
    (inside : current ≤ last) (enough : (last + 1 - current).toNat ≤ rounds) :
    TilesFrom (last + 1) current (rangesFrom step last rounds current) := by
  induction rounds generalizing current with
  | zero => omega
  | succ rounds ih =>
      rw [rangesFrom, if_pos inside]
      by_cases clipped : current + step ≤ last
      · rw [if_pos clipped]
        refine ⟨rfl, ?_, ih (current + step) clipped (by omega)⟩
        change current < current + step
        omega
      · rw [if_neg clipped]
        rw [rangesFrom_of_lt (not_le.mp clipped)]
        refine ⟨rfl, ?_, rfl⟩
        change current < last + 1
        omega

/-- The range loop tiles its interval. -/
theorem tiling_ranges {first last step : Int} (positive : 1 ≤ step) (ordered : first ≤ last) :
    Tiling first (last + 1) (ranges first last step) :=
  (tilesFrom_rangesFrom positive _ first ordered (Nat.le_refl _)).tiling

/-- Every piece but the last is a whole step, so the last one starts within the
interval that many steps after the first. -/
theorem length_rangesFrom {step last : Int} (positive : 1 ≤ step) (rounds : Nat) (current : Int)
    (inside : current ≤ last) :
    (((rangesFrom step last rounds current).length : Int) - 1) * step ≤ last - current := by
  induction rounds generalizing current with
  | zero =>
      rw [rangesFrom, List.length_nil]
      omega
  | succ rounds ih =>
      rw [rangesFrom, if_pos inside, List.length_cons, Int.natCast_add, Int.natCast_one,
        Int.add_sub_cancel]
      by_cases further : current + step ≤ last
      · have remaining := ih (current + step) further
        rw [Int.sub_mul, Int.one_mul] at remaining
        omega
      · rw [rangesFrom_of_lt (not_le.mp further), List.length_nil, Int.natCast_zero, Int.zero_mul]
        omega

end Splitting
end WarehouseSync

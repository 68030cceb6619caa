import Mathlib.Data.Finset.Sort
import Mathlib.Data.List.Sort

namespace WarehouseSync
namespace CursorScans

/-!
# Scanning a set that changes, page by page

The elements of an ordered set are listed in pages.  A page holds the first
elements after the last one of the page before, as the set is when the page is
asked for; the scan ends with a page after which there is nothing left.  The set
may change between any two pages.  What is in it all the time is listed, and
nothing is listed twice.
-/

universe u

variable {κ : Type u} [LinearOrder κ]

/-- The element comes after the cursor.  Before the first page there is no cursor,
and everything is beyond it. -/
def Beyond (cursor : Option κ) (key : κ) : Prop :=
  forall last, cursor = some last -> last < key

instance decidableBeyond : forall (cursor : Option κ) (key : κ), Decidable (Beyond cursor key)
  | none, _ => isTrue (fun _ impossible => by cases impossible)
  | some last, key => decidable_of_iff (last < key)
      ⟨fun later other same => Option.some.inj same ▸ later, fun beyond => beyond last rfl⟩

def remaining (keys : Finset κ) (cursor : Option κ) : Finset κ :=
  keys.filter (Beyond cursor)

def inOrder (keys : Finset κ) (cursor : Option κ) : List κ :=
  (remaining keys cursor).sort

/-- The next elements in order, at most so many.  It depends on the set as it is now
and on the cursor alone. -/
def page (keys : Finset κ) (cursor : Option κ) (size : Nat) : List κ :=
  (inOrder keys cursor).take size

/-- There is more after the page. -/
def truncated (keys : Finset κ) (cursor : Option κ) (size : Nat) : Bool :=
  decide (size < (remaining keys cursor).card)

variable {keys : Finset κ} {cursor : Option κ} {size : Nat} {key : κ}

theorem mem_remaining : key ∈ remaining keys cursor ↔ key ∈ keys ∧ Beyond cursor key :=
  Finset.mem_filter

theorem mem_inOrder : key ∈ inOrder keys cursor ↔ key ∈ remaining keys cursor :=
  Finset.mem_sort _

theorem mem_of_mem_page (listed : key ∈ page keys cursor size) : key ∈ keys ∧ Beyond cursor key :=
  mem_remaining.mp (mem_inOrder.mp (List.mem_of_mem_take listed))

theorem sorted_inOrder (keys : Finset κ) (cursor : Option κ) :
    (inOrder keys cursor).Pairwise (fun first second => first < second) :=
  (Finset.sortedLT_sort _).pairwise

theorem sorted_page (keys : Finset κ) (cursor : Option κ) (size : Nat) :
    (page keys cursor size).Pairwise (fun first second => first < second) :=
  (sorted_inOrder keys cursor).sublist (List.take_sublist _ _)

/-- What the page leaves out comes after all of it. -/
theorem mem_page_or_after (left : key ∈ remaining keys cursor) (size : Nat) :
    key ∈ page keys cursor size ∨ forall listed, listed ∈ page keys cursor size -> listed < key := by
  have member := mem_inOrder.mpr left
  rw [← List.take_append_drop size (inOrder keys cursor)] at member
  rcases List.mem_append.mp member with early | late
  · exact Or.inl early
  · right
    intro listed inPage
    have sorted := sorted_inOrder keys cursor
    rw [← List.take_append_drop size (inOrder keys cursor)] at sorted
    exact (List.pairwise_append.mp sorted).2.2 listed inPage key late

/-- A last page lists everything that is left. -/
theorem mem_page_of_not_truncated (finished : truncated keys cursor size = false)
    (left : key ∈ remaining keys cursor) : key ∈ page keys cursor size := by
  have few : (remaining keys cursor).card ≤ size := by
    have bound := of_decide_eq_false finished
    omega
  have all : page keys cursor size = inOrder keys cursor := by
    apply List.take_of_length_le
    exact (Finset.length_sort _).le.trans few
  rw [all]
  exact mem_inOrder.mpr left

/-! ## Scans -/

/-- What was listed so far, and where the next page begins.  The set is not part of
it, since it may change between two pages. -/
structure Scan (κ : Type u) where
  listed : List κ
  cursor : Option κ
  finished : Bool
deriving DecidableEq, Repr

def start : Scan κ :=
  { listed := [], cursor := none, finished := false }

/-- One page more.  The cursor moves to the last element of the page, and stays
where it is when the page is empty. -/
def Scan.next (scan : Scan κ) (keys : Finset κ) (size : Nat) : Scan κ :=
  { listed := scan.listed ++ page keys scan.cursor size
    cursor := (page keys scan.cursor size).getLast?.or scan.cursor
    finished := !truncated keys scan.cursor size }

/-- The elements were listed in their order, and none of them is beyond the cursor.
It holds of every scan, whatever sets its pages were taken from. -/
structure Scan.Sound (scan : Scan κ) : Prop where
  sorted : scan.listed.Pairwise (fun first second => first < second)
  reached : forall key, key ∈ scan.listed -> Exists fun last : κ => scan.cursor = some last ∧ key ≤ last

theorem sound_start : (start : Scan κ).Sound where
  sorted := List.Pairwise.nil
  reached := fun _ none => absurd none List.not_mem_nil

variable {scan : Scan κ}

theorem le_getLast_of_sorted {elements : List κ} (sorted : elements.Pairwise (fun first second => first < second))
    {last : κ} (ends : elements.getLast? = some last) (member : key ∈ elements) : key ≤ last := by
  rcases List.getLast?_eq_some_iff.mp ends with ⟨before, rfl⟩
  rcases List.mem_append.mp member with earlier | final
  · exact le_of_lt ((List.pairwise_append.mp sorted).2.2 key earlier last List.mem_cons_self)
  · exact le_of_eq (List.mem_singleton.mp final)

/-- The cursor never goes back. -/
theorem Scan.Sound.next (sound : scan.Sound) (keys : Finset κ) (size : Nat) : (scan.next keys size).Sound where
  sorted := by
    refine List.pairwise_append.mpr ⟨sound.sorted, sorted_page keys scan.cursor size, ?_⟩
    intro old before new listed
    rcases sound.reached old before with ⟨last, found, below⟩
    exact lt_of_le_of_lt below ((mem_of_mem_page listed).2 last found)
  reached := by
    intro key member
    change Exists fun last : κ => (page keys scan.cursor size).getLast?.or scan.cursor = some last ∧ key ≤ last
    cases ends : (page keys scan.cursor size).getLast? with
    | none =>
        rw [Option.none_or]
        rcases List.mem_append.mp member with before | listed
        · exact sound.reached key before
        · rw [List.getLast?_eq_none_iff.mp ends] at listed
          exact absurd listed List.not_mem_nil
    | some last =>
        refine ⟨last, rfl, ?_⟩
        rcases List.mem_append.mp member with before | listed
        · rcases sound.reached key before with ⟨old, found, below⟩
          have inPage := List.mem_of_getLast? ends
          exact le_trans below (le_of_lt ((mem_of_mem_page inPage).2 old found))
        · exact le_getLast_of_sorted (sorted_page keys scan.cursor size) ends listed

/-- The element was listed, or the scan has still to come to it.  For an element
that stays in the set this is kept by every page. -/
def Scan.Meets (scan : Scan κ) (key : κ) : Prop :=
  key ∈ scan.listed ∨ (scan.finished = false ∧ Beyond scan.cursor key)

theorem meets_start (key : κ) : (start : Scan κ).Meets key :=
  Or.inr ⟨rfl, fun _ impossible => by cases impossible⟩

/-- A page does not pass over an element of the set. -/
theorem Scan.Meets.next (meets : scan.Meets key) (present : key ∈ scan.listed ∨ key ∈ keys) (size : Nat) :
    (scan.next keys size).Meets key := by
  rcases meets with before | ⟨_, beyond⟩
  · exact Or.inl (List.mem_append_left _ before)
  · rcases present with before | inSet
    · exact Or.inl (List.mem_append_left _ before)
    · have left := mem_remaining.mpr ⟨inSet, beyond⟩
      cases more : truncated keys scan.cursor size with
      | false => exact Or.inl (List.mem_append_right _ (mem_page_of_not_truncated more left))
      | true =>
          rcases mem_page_or_after left size with listed | after
          · exact Or.inl (List.mem_append_right _ listed)
          · refine Or.inr ⟨congrArg (!·) more, ?_⟩
            intro last found
            change (page keys scan.cursor size).getLast?.or scan.cursor = some last at found
            cases ends : (page keys scan.cursor size).getLast? with
            | none =>
                rw [ends, Option.none_or] at found
                exact beyond last found
            | some final =>
                rw [ends, Option.some_or] at found
                exact Option.some.inj found ▸ after final (List.mem_of_getLast? ends)

theorem remaining_mono {fewer : Finset κ} (subset : fewer ⊆ keys) (cursor : Option κ) :
    remaining fewer cursor ⊆ remaining keys cursor :=
  Finset.filter_subset_filter _ subset

/-- Pages are not met again. -/
theorem remaining_next (scan : Scan κ) (keys : Finset κ) (size : Nat) :
    remaining keys (scan.next keys size).cursor ⊆
      remaining keys scan.cursor \ (page keys scan.cursor size).toFinset := by
  intro key left
  rcases mem_remaining.mp left with ⟨present, beyond⟩
  change Beyond ((page keys scan.cursor size).getLast?.or scan.cursor) key at beyond
  rw [Finset.mem_sdiff, List.mem_toFinset]
  cases ends : (page keys scan.cursor size).getLast? with
  | none =>
      rw [ends, Option.none_or] at beyond
      rw [List.getLast?_eq_none_iff.mp ends]
      exact ⟨mem_remaining.mpr ⟨present, beyond⟩, List.not_mem_nil⟩
  | some last =>
      rw [ends, Option.some_or] at beyond
      have after := beyond last rfl
      have earlier := (mem_of_mem_page (List.mem_of_getLast? ends)).2
      refine ⟨mem_remaining.mpr ⟨present, fun old found => lt_trans (earlier old found) after⟩, ?_⟩
      intro listed
      exact absurd (le_getLast_of_sorted (sorted_page keys scan.cursor size) ends listed) (not_le.mpr after)

theorem card_remaining_next (scan : Scan κ) (keys : Finset κ) (size : Nat) :
    (remaining keys (scan.next keys size).cursor).card + (page keys scan.cursor size).length ≤
      (remaining keys scan.cursor).card := by
  have inside : (page keys scan.cursor size).toFinset ⊆ remaining keys scan.cursor := by
    intro key listed
    exact mem_remaining.mpr (mem_of_mem_page (List.mem_toFinset.mp listed))
  have once : (page keys scan.cursor size).Nodup := (sorted_page keys scan.cursor size).imp ne_of_lt
  have fewer := Finset.card_le_card (remaining_next scan keys size)
  rw [Finset.card_sdiff_of_subset inside, List.toFinset_card_of_nodup once] at fewer
  have bound := Finset.card_le_card inside
  rw [List.toFinset_card_of_nodup once] at bound
  omega

/-- A page after which there is more is full. -/
theorem length_page_of_truncated (more : truncated keys cursor size = true) :
    (page keys cursor size).length = size := by
  have many := of_decide_eq_true more
  have length : (inOrder keys cursor).length = (remaining keys cursor).card := Finset.length_sort _
  unfold page
  rw [List.length_take, length]
  omega

end CursorScans
end WarehouseSync

import Mathlib.Data.List.Basic

namespace WarehouseSync
namespace JoinedNames

/-!
# Pairs of texts joined by a separator

Two pairs are joined to the same text exactly if they are the same pair or the
second part of one has slid over the separator into the first part of the other.
What slides either contains the separator whole, or it is a beginning of the
separator that overlaps with its own copy.  A separator of one letter cannot
overlap, and one that the second parts do not contain tells all pairs apart.
-/

universe u

variable {α : Type u}

/-- The two parts with the separator between them.  Nothing is escaped, so other
parts may give the same text. -/
def joined (separator : List α) (pair : List α × List α) : List α :=
  pair.1 ++ separator ++ pair.2

/-- The first part of `right` is longer, and both are joined to one text.  What it
has more is the shift. -/
def Slides (separator : List α) (left right : List α × List α) : Prop :=
  Exists fun shift : List α => shift ≠ [] ∧ right.1 = left.1 ++ shift ∧
    separator ++ left.2 = shift ++ (separator ++ right.2)

/-- A separator of the text lies in the second part of `left` and in the first part
of `right`.  For a separator that does not overlap itself this is the only way in
which two pairs join to one text. -/
def Contains (separator : List α) (left right : List α × List α) : Prop :=
  Exists fun middle : List α => right.1 = left.1 ++ separator ++ middle ∧
    left.2 = middle ++ separator ++ right.2

variable {separator : List α} {left right : List α × List α}

theorem joined_eq_of_slides (slides : Slides separator left right) :
    joined separator left = joined separator right := by
  rcases slides with ⟨shift, _, longer, same⟩
  unfold joined
  rw [longer, List.append_assoc, List.append_assoc, List.append_assoc, same]

theorem joined_eq_iff :
    joined separator left = joined separator right ↔
      left = right ∨ Slides separator left right ∨ Slides separator right left := by
  constructor
  · intro same
    unfold joined at same
    rw [List.append_assoc, List.append_assoc] at same
    rcases List.append_eq_append_iff.mp same with ⟨shift, longer, rest⟩ | ⟨shift, longer, rest⟩
    · by_cases empty : shift = []
      · subst empty
        rw [List.append_nil] at longer
        exact Or.inl (Prod.ext longer.symm (List.append_cancel_left rest))
      · exact Or.inr (Or.inl ⟨shift, empty, longer, rest⟩)
    · by_cases empty : shift = []
      · subst empty
        rw [List.append_nil] at longer
        exact Or.inl (Prod.ext longer (List.append_cancel_left rest).symm)
      · exact Or.inr (Or.inr ⟨shift, empty, longer, rest⟩)
  · rintro (rfl | slides | slides)
    · rfl
    · exact joined_eq_of_slides slides
    · exact (joined_eq_of_slides slides).symm

/-- What slides is the separator and more, or a proper beginning of it. -/
theorem slides_iff (some : separator ≠ []) :
    Slides separator left right ↔ Contains separator left right ∨
      Exists fun shift : List α => Exists fun rest : List α => shift ≠ [] ∧ rest ≠ [] ∧
        separator = shift ++ rest ∧ right.1 = left.1 ++ shift ∧ rest ++ left.2 = separator ++ right.2 := by
  constructor
  · rintro ⟨shift, nonempty, longer, same⟩
    rcases List.append_eq_append_iff.mp same with ⟨middle, whole, rest⟩ | ⟨rest, split, overlap⟩
    · refine Or.inl ⟨middle, ?_, ?_⟩
      · rw [longer, whole, List.append_assoc]
      · rw [rest, List.append_assoc]
    · by_cases complete : rest = []
      · subst complete
        rw [List.append_nil] at split
        rw [List.nil_append] at overlap
        refine Or.inl ⟨[], ?_, ?_⟩
        · rw [longer, split, List.append_nil]
        · rw [← overlap, List.nil_append]
      · exact Or.inr ⟨shift, rest, nonempty, complete, split, longer, overlap.symm⟩
  · rintro (⟨middle, longer, contained⟩ | ⟨shift, rest, nonempty, _, split, longer, overlap⟩)
    · refine ⟨separator ++ middle, fun empty => some (List.append_eq_nil_iff.mp empty).1, ?_, ?_⟩
      · rw [longer, List.append_assoc]
      · rw [contained]
        simp only [List.append_assoc]
    · refine ⟨shift, nonempty, longer, ?_⟩
      rw [← overlap, split, List.append_assoc]

/-- One letter cannot overlap with itself. -/
theorem slides_singleton {letter : α} : Slides [letter] left right ↔ Contains [letter] left right := by
  rw [slides_iff (List.cons_ne_nil letter [])]
  refine or_iff_left ?_
  rintro ⟨shift, rest, nonempty, proper, split, _⟩
  rcases List.append_eq_singleton_iff.mp split.symm with ⟨none, _⟩ | ⟨_, none⟩
  · exact nonempty none
  · exact proper none

/-- A letter twice overlaps with itself in one place. -/
theorem slides_pair {letter : α} :
    Slides [letter, letter] left right ↔ Contains [letter, letter] left right ∨
      (right.1 = left.1 ++ [letter] ∧ left.2 = letter :: right.2) := by
  rw [slides_iff (List.cons_ne_nil letter [letter])]
  refine or_congr Iff.rfl ?_
  constructor
  · rintro ⟨shift, rest, nonempty, proper, split, longer, overlap⟩
    rcases List.cons_eq_append_iff.mp split with ⟨none, _⟩ | ⟨tail, rfl, remaining⟩
    · exact absurd none nonempty
    · rcases List.append_eq_singleton_iff.mp remaining.symm with ⟨rfl, rfl⟩ | ⟨_, none⟩
      · exact ⟨longer, @List.append_cancel_left _ [letter] _ _ overlap⟩
      · exact absurd none proper
  · rintro ⟨longer, same⟩
    refine ⟨[letter], [letter], List.cons_ne_nil _ _, List.cons_ne_nil _ _, rfl, longer, ?_⟩
    rw [same]
    rfl

/-- A letter that the second parts do not contain tells the pairs apart. -/
theorem joined_injective {letter : α} {first second third fourth : List α}
    (same : joined [letter] (first, second) = joined [letter] (third, fourth))
    (absentSecond : letter ∉ second) (absentFourth : letter ∉ fourth) : first = third ∧ second = fourth := by
  rcases joined_eq_iff.mp same with equal | slides | slides
  · exact Prod.mk.inj equal
  · rcases slides_singleton.mp slides with ⟨middle, _, contained⟩
    refine absurd ?_ absentSecond
    simp only at contained
    simp [contained]
  · rcases slides_singleton.mp slides with ⟨middle, _, contained⟩
    refine absurd ?_ absentFourth
    simp only at contained
    simp [contained]

/-- So does a letter that the first parts do not contain. -/
theorem joined_injective_first {letter : α} {first second third fourth : List α}
    (same : joined [letter] (first, second) = joined [letter] (third, fourth))
    (absentFirst : letter ∉ first) (absentThird : letter ∉ third) : first = third ∧ second = fourth := by
  rcases joined_eq_iff.mp same with equal | slides | slides
  · exact Prod.mk.inj equal
  · rcases slides_singleton.mp slides with ⟨middle, contained, _⟩
    refine absurd ?_ absentThird
    simp only at contained
    simp [contained]
  · rcases slides_singleton.mp slides with ⟨middle, contained, _⟩
    refine absurd ?_ absentFirst
    simp only at contained
    simp [contained]

end JoinedNames
end WarehouseSync

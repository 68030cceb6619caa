import Mathlib.Logic.Function.Basic
import Mathlib.Order.Lattice
import Mathlib.Data.List.Induction

namespace WarehouseSync
namespace EditLogs

/-!
# What a dictionary held, and when

A dictionary is edited over time, and the log of the edits is in the order in
which they were made.  What it held during a window of time is what it held at
the beginning of the window, and what was stored in it since.
-/

universe u v w

/-- A value stored under a key at some time.  A log of edits tells what was held
when, without keeping every earlier dictionary. -/
structure Edit (τ : Type u) (κ : Type v) (ν : Type w) where
  time : τ
  key : κ
  value : ν
deriving DecidableEq, Repr

variable {τ : Type u} {κ : Type v} {ν : Type w}

section Times

variable [LinearOrder τ] {edits earlier later : List (Edit τ κ ν)} {since : τ}

def InOrder (edits : List (Edit τ κ ν)) : Prop :=
  edits.Pairwise (fun first second => first.time ≤ second.time)

/-- The edits up to a time. -/
def upTo (since : τ) (edits : List (Edit τ κ ν)) : List (Edit τ κ ν) :=
  edits.filter (fun edit => decide (edit.time ≤ since))

theorem inOrder_concat {edit : Edit τ κ ν} (ordered : InOrder edits)
    (latest : forall other, other ∈ edits -> other.time ≤ edit.time) : InOrder (edits ++ [edit]) := by
  refine List.pairwise_append.mpr ⟨ordered, List.pairwise_singleton _ _, ?_⟩
  intro other member last isLast
  rw [List.mem_singleton.mp isLast]
  exact latest other member

theorem upTo_append_recent (recent : forall edit, edit ∈ later -> since < edit.time) :
    upTo since (earlier ++ later) = upTo since earlier := by
  have none : later.filter (fun edit => decide (edit.time ≤ since)) = [] := by
    apply List.filter_eq_nil_iff.mpr
    intro edit member old
    exact not_le.mpr (recent edit member) (of_decide_eq_true old)
  rw [upTo, List.filter_append, none, List.append_nil]
  rfl

theorem upTo_eq_self (old : forall edit, edit ∈ edits -> edit.time ≤ since) : upTo since edits = edits := by
  apply List.filter_eq_self.mpr
  intro edit member
  exact decide_eq_true (old edit member)

/-- What comes after the edits up to a time is more recent. -/
theorem exists_recent (ordered : InOrder edits) (since : τ) :
    Exists fun recent : List (Edit τ κ ν) =>
      edits = upTo since edits ++ recent ∧ forall edit, edit ∈ recent -> since < edit.time := by
  induction edits with
  | nil =>
      refine ⟨[], rfl, ?_⟩
      intro edit none
      cases none
  | cons edit edits ih =>
      have parts := List.pairwise_cons.mp ordered
      by_cases old : edit.time ≤ since
      · rcases ih parts.2 with ⟨recent, split, newer⟩
        refine ⟨recent, ?_, newer⟩
        have first : upTo since (edit :: edits) = edit :: upTo since edits :=
          List.filter_cons_of_pos (decide_eq_true old)
        rw [first, List.cons_append, ← split]
      · have newer : forall other, other ∈ edit :: edits -> since < other.time := by
          intro other member
          rcases List.mem_cons.mp member with rfl | afterwards
          · exact not_le.mp old
          · exact lt_of_lt_of_le (not_le.mp old) (parts.1 other afterwards)
        have nothing : upTo since (edit :: edits) = [] := @upTo_append_recent τ κ ν _ [] _ _ newer
        exact ⟨edit :: edits, by rw [nothing, List.nil_append], newer⟩

end Times

/-! ## What was held -/

variable [DecidableEq κ]

/-- The dictionary after some edits.  They are applied in the order of the log, so
of two edits of one instant the later one in it counts. -/
def after (start : κ -> Option ν) (edits : List (Edit τ κ ν)) : κ -> Option ν :=
  edits.foldl (fun held edit => Function.update held edit.key (some edit.value)) start

theorem after_concat (start : κ -> Option ν) (edits : List (Edit τ κ ν)) (edit : Edit τ κ ν) :
    after start (edits ++ [edit]) = Function.update (after start edits) edit.key (some edit.value) := by
  rw [after, List.foldl_append]
  rfl

/-- Edits of other keys leave an entry as it is. -/
theorem after_of_untouched {edits : List (Edit τ κ ν)} {key : κ}
    (untouched : forall edit, edit ∈ edits -> edit.key ≠ key) (start : κ -> Option ν) :
    after start edits key = start key := by
  induction edits using List.reverseRecOn with
  | nil => rfl
  | append_singleton edits edit ih =>
      have other := untouched edit (List.mem_append_right _ List.mem_cons_self)
      rw [after_concat, Function.update_of_ne other.symm]
      exact ih (fun edit member => untouched edit (List.mem_append_left _ member))

/-- An entry in which one value was stored, and no other, holds that value. -/
theorem after_of_only {edits : List (Edit τ κ ν)} {key : κ} {value : ν}
    (only : forall edit, edit ∈ edits -> edit.key = key -> edit.value = value)
    (stored : Exists fun edit => edit ∈ edits ∧ edit.key = key) (start : κ -> Option ν) :
    after start edits key = some value := by
  induction edits using List.reverseRecOn with
  | nil =>
      rcases stored with ⟨edit, none, _⟩
      cases none
  | append_singleton edits edit ih =>
      rw [after_concat]
      by_cases own : edit.key = key
      · rw [own, Function.update_self, only edit (List.mem_append_right _ List.mem_cons_self) own]
      · rw [Function.update_of_ne (Ne.symm own)]
        apply ih (fun edit member => only edit (List.mem_append_left _ member))
        rcases stored with ⟨other, member, same⟩
        rcases List.mem_append.mp member with before | last
        · exact ⟨other, before, same⟩
        · rw [List.mem_singleton.mp last] at same
          exact absurd same own

variable [LinearOrder τ]

/-- At the instant the entry of the key passed the test.  An edit of that very
instant may have been made or not, so there may be two entries to test. -/
def HeldAt (start : κ -> Option ν) (edits : List (Edit τ κ ν)) (instant : τ) (key : κ)
    (test : Option ν -> Prop) : Prop :=
  Exists fun earlier : List (Edit τ κ ν) => Exists fun later : List (Edit τ κ ν) =>
    edits = earlier ++ later ∧ (forall edit, edit ∈ earlier -> edit.time ≤ instant) ∧
      (forall edit, edit ∈ later -> instant ≤ edit.time) ∧ test (after start earlier key)

/-- It did so at some instant after `since`, and not after `now`. -/
def HeldSince (start : κ -> Option ν) (edits : List (Edit τ κ ν)) (since now : τ) (key : κ)
    (test : Option ν -> Prop) : Prop :=
  Exists fun instant : τ => since < instant ∧ instant ≤ now ∧ HeldAt start edits instant key test

variable {start : κ -> Option ν} {edits : List (Edit τ κ ν)} {since now : τ} {key : κ}
  {test : Option ν -> Prop}

/-- A moment in the window is a place in the log after which there are only edits
of the window. -/
theorem heldSince_iff_place (ordered : InOrder edits) (made : forall edit, edit ∈ edits -> edit.time ≤ now)
    (window : since < now) :
    HeldSince start edits since now key test ↔
      Exists fun earlier : List (Edit τ κ ν) => Exists fun later : List (Edit τ κ ν) =>
        edits = earlier ++ later ∧ (forall edit, edit ∈ later -> since < edit.time) ∧
          test (after start earlier key) := by
  constructor
  · rintro ⟨instant, inside, _, earlier, later, split, _, notBefore, held⟩
    exact ⟨earlier, later, split, fun edit member => lt_of_lt_of_le inside (notBefore edit member), held⟩
  · rintro ⟨earlier, later, rfl, recent, held⟩
    cases later with
    | nil =>
        refine ⟨now, window, le_refl now, earlier, [], rfl, ?_, ?_, held⟩
        · intro edit member
          exact made edit (List.mem_append_left _ member)
        · intro edit none
          cases none
    | cons first rest =>
        have parts := List.pairwise_append.mp ordered
        refine ⟨first.time, recent first List.mem_cons_self,
          made first (List.mem_append_right _ List.mem_cons_self), earlier, first :: rest, rfl, ?_, ?_, held⟩
        · intro edit member
          exact parts.2.2 edit member first List.mem_cons_self
        · intro edit member
          rcases List.mem_cons.mp member with rfl | afterwards
          · exact le_refl _
          · exact (List.pairwise_cons.mp parts.2.1).1 edit afterwards

/-- An entry is as it was at the time, or it was stored since. -/
theorem after_cases (ordered : InOrder edits) (start : κ -> Option ν) (since : τ) (key : κ) :
    after start edits key = after start (upTo since edits) key ∨
      Exists fun edit : Edit τ κ ν => edit ∈ edits ∧ since < edit.time ∧ edit.key = key ∧
        after start edits key = some edit.value := by
  induction edits using List.reverseRecOn with
  | nil => exact Or.inl rfl
  | append_singleton edits edit ih =>
      have parts := List.pairwise_append.mp ordered
      by_cases old : edit.time ≤ since
      · rw [upTo_eq_self]
        · exact Or.inl rfl
        · intro other member
          rcases List.mem_append.mp member with before | last
          · exact le_trans (parts.2.2 other before edit List.mem_cons_self) old
          · rw [List.mem_singleton.mp last]
            exact old
      · have recent : forall other, other ∈ [edit] -> since < other.time := by
          intro other last
          rw [List.mem_singleton.mp last]
          exact not_le.mp old
        rw [upTo_append_recent recent, after_concat]
        by_cases own : edit.key = key
        · refine Or.inr ⟨edit, List.mem_append_right _ List.mem_cons_self, not_le.mp old, own, ?_⟩
          rw [own, Function.update_self]
        · rw [Function.update_of_ne (Ne.symm own)]
          rcases ih parts.1 with kept | ⟨other, member, inside, same, stored⟩
          · exact Or.inl kept
          · exact Or.inr ⟨other, List.mem_append_left _ member, inside, same, stored⟩

/-- An entry passed a test in the window exactly if it did at its beginning, or an
edit in the window stored a value that does. -/
theorem heldSince_iff (ordered : InOrder edits) (made : forall edit, edit ∈ edits -> edit.time ≤ now)
    (window : since < now) :
    HeldSince start edits since now key test ↔
      test (after start (upTo since edits) key) ∨
        Exists fun edit : Edit τ κ ν =>
          edit ∈ edits ∧ since < edit.time ∧ edit.key = key ∧ test (some edit.value) := by
  rw [heldSince_iff_place ordered made window]
  constructor
  · rintro ⟨earlier, later, rfl, recent, held⟩
    rw [upTo_append_recent recent]
    rcases after_cases (List.pairwise_append.mp ordered).1 start since key with
      same | ⟨edit, member, inside, own, stored⟩
    · rw [same] at held
      exact Or.inl held
    · rw [stored] at held
      exact Or.inr ⟨edit, List.mem_append_left _ member, inside, own, held⟩
  · rintro (held | ⟨edit, member, inside, own, held⟩)
    · rcases exists_recent ordered since with ⟨recent, split, newer⟩
      exact ⟨upTo since edits, recent, split, newer, held⟩
    · rcases List.append_of_mem member with ⟨before, behind, rfl⟩
      have parts := (List.pairwise_append.mp ordered).2.1
      refine ⟨before ++ [edit], behind, by simp, ?_, ?_⟩
      · intro other afterwards
        exact lt_of_lt_of_le inside ((List.pairwise_cons.mp parts).1 other afterwards)
      · rw [after_concat, ← own, Function.update_self]
        exact held

/-- The entry passed the test when it was read at the time or later: what was not
seen was stored later than the time.  Unlike the instant of the reading, this
survives further edits. -/
def ReadSince (start : κ -> Option ν) (edits : List (Edit τ κ ν)) (since : τ) (key : κ)
    (test : Option ν -> Prop) : Prop :=
  Exists fun seen : List (Edit τ κ ν) => Exists fun unseen : List (Edit τ κ ν) =>
    edits = seen ++ unseen ∧ (forall edit, edit ∈ unseen -> since ≤ edit.time) ∧ test (after start seen key)

/-- What is read now. -/
theorem readSince_now (held : test (after start edits key)) : ReadSince start edits since key test := by
  refine ⟨edits, [], (List.append_nil edits).symm, ?_, held⟩
  intro edit none
  cases none

/-- Later edits do not change what was read. -/
theorem ReadSince.concat (read : ReadSince start edits since key test) {edit : Edit τ κ ν}
    (later : since ≤ edit.time) : ReadSince start (edits ++ [edit]) since key test := by
  rcases read with ⟨seen, unseen, rfl, recent, held⟩
  refine ⟨seen, unseen ++ [edit], List.append_assoc _ _ _, ?_, held⟩
  intro other member
  rcases List.mem_append.mp member with before | last
  · exact recent other before
  · rw [List.mem_singleton.mp last]
    exact later

/-- What was read was held at some instant from then on. -/
theorem ReadSince.heldAt (ordered : InOrder edits) (made : forall edit, edit ∈ edits -> edit.time ≤ now)
    (read : ReadSince start edits since key test) (past : since ≤ now) :
    Exists fun instant : τ => since ≤ instant ∧ instant ≤ now ∧ HeldAt start edits instant key test := by
  rcases read with ⟨seen, unseen, rfl, recent, held⟩
  cases unseen with
  | nil =>
      refine ⟨now, past, le_refl now, seen, [], rfl, ?_, ?_, held⟩
      · intro edit member
        exact made edit (List.mem_append_left _ member)
      · intro edit none
        cases none
  | cons first rest =>
      have parts := List.pairwise_append.mp ordered
      refine ⟨first.time, recent first List.mem_cons_self, made first (List.mem_append_right _ List.mem_cons_self),
        seen, first :: rest, rfl, ?_, ?_, held⟩
      · intro edit member
        exact parts.2.2 edit member first List.mem_cons_self
      · intro edit member
        rcases List.mem_cons.mp member with rfl | afterwards
        · exact le_refl _
        · exact (List.pairwise_cons.mp parts.2.1).1 edit afterwards

theorem ReadSince.heldSince (ordered : InOrder edits) (made : forall edit, edit ∈ edits -> edit.time ≤ now)
    {stamp : τ} (read : ReadSince start edits stamp key test) (young : since < stamp) (past : stamp ≤ now) :
    HeldSince start edits since now key test := by
  rcases read.heldAt ordered made past with ⟨instant, later, notAfter, held⟩
  exact ⟨instant, lt_of_lt_of_le young later, notAfter, held⟩

end EditLogs
end WarehouseSync

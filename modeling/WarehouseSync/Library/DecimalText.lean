import Mathlib.Tactic.Ring
import Mathlib.Data.Nat.Basic

namespace WarehouseSync
namespace DecimalText

/-!
# Decimal numbers in fixed-width and free-width text

`pad` writes a number in exactly the given number of digits and `readFixed`
reads one back from the front of a text, returning what follows it.  `intText`
and `readInt` do the same for a whole text with an optional sign.  Reading what
was written gives the number back; for fixed widths the number must fit.
-/

/-- The last `width` decimal digits of a number, with leading zeros.  A number that
is too large loses its leading digits. -/
def pad : Nat -> Nat -> List Char
  | 0, _ => []
  | width + 1, value => pad width (value / 10) ++ [Nat.digitChar (value % 10)]

/-- The number written in the first `width` characters, all of them digits, and the
text after them. -/
def readFixed (width : Nat) (text : List Char) : Option (Nat × List Char) :=
  let front := text.take width
  if front.length = width ∧ front.all Char.isDigit then
    some (Nat.ofDigitChars 10 front 0, text.drop width)
  else none

/-- A separator at the front of a text. -/
def readChar (expected : Char) : List Char -> Option (List Char)
  | [] => none
  | first :: rest => if first = expected then some rest else none

/-- A text that is nothing but digits, and at least one of them. -/
def readNat (text : List Char) : Option Nat :=
  if text ≠ [] ∧ text.all Char.isDigit then some (Nat.ofDigitChars 10 text 0) else none

def intText : Int -> List Char
  | Int.ofNat value => Nat.toDigits 10 value
  | Int.negSucc value => '-' :: Nat.toDigits 10 (value + 1)

/-- An integer with or without a sign.  Nothing else may stand in the text, not even
blanks. -/
def readInt (text : List Char) : Option Int :=
  match readChar '-' text, readChar '+' text with
  | some rest, _ => (readNat rest).map (fun value : Nat => -(value : Int))
  | none, some rest => (readNat rest).map (fun value : Nat => (value : Int))
  | none, none => (readNat text).map (fun value : Nat => (value : Int))

theorem toNat_of_isDigit {char : Char} (digit : char.isDigit = true) : 48 ≤ char.toNat ∧ char.toNat ≤ 57 := by
  have bounds := (Bool.and_eq_true _ _).mp digit
  exact ⟨UInt32.le_iff_toNat_le.mp (of_decide_eq_true bounds.1),
    UInt32.le_iff_toNat_le.mp (of_decide_eq_true bounds.2)⟩

@[simp] theorem length_pad (width value : Nat) : (pad width value).length = width := by
  induction width generalizing value with
  | zero => rfl
  | succ width ih => simp [pad, ih]

theorem isDigit_of_mem_pad {width value : Nat} {digit : Char} (member : digit ∈ pad width value) :
    digit.isDigit = true := by
  induction width generalizing value with
  | zero => cases member
  | succ width ih =>
      rw [pad] at member
      rcases List.mem_append.mp member with early | last
      · exact ih early
      · rw [List.mem_singleton.mp last, Nat.isDigit_digitChar]
        exact decide_eq_true (Nat.mod_lt value (by decide))

/-- The digits of a number that fits are the number. -/
theorem ofDigitChars_pad {width value : Nat} (fits : value < 10 ^ width) :
    Nat.ofDigitChars 10 (pad width value) 0 = value := by
  induction width generalizing value with
  | zero =>
      have nothing : value = 0 := by omega
      rw [nothing]
      rfl
  | succ width ih =>
      have smaller : value / 10 < 10 ^ width := by
        rw [Nat.pow_succ] at fits
        omega
      rw [pad, Nat.ofDigitChars_append, ih smaller,
        Nat.ofDigitChars_cons_digitChar_of_lt_ten (Nat.mod_lt value (by decide)),
        Nat.ofDigitChars_nil]
      omega

theorem readFixed_pad {width value : Nat} (fits : value < 10 ^ width) (rest : List Char) :
    readFixed width (pad width value ++ rest) = some (value, rest) := by
  have front : (pad width value ++ rest).take width = pad width value := by
    rw [List.take_append_of_le_length (by simp), List.take_of_length_le (by simp)]
  have back : (pad width value ++ rest).drop width = rest := by
    rw [List.drop_append_of_le_length (by simp), List.drop_of_length_le (by simp), List.nil_append]
  have digits : (pad width value).all Char.isDigit = true :=
    List.all_eq_true.mpr (fun _ member => isDigit_of_mem_pad member)
  simp only [readFixed, front, back, length_pad, digits, true_and, if_true, ofDigitChars_pad fits]

@[simp] theorem readChar_cons (expected : Char) (rest : List Char) :
    readChar expected (expected :: rest) = some rest := by
  rw [readChar, if_pos rfl]

theorem readNat_toDigits (value : Nat) : readNat (Nat.toDigits 10 value) = some value := by
  have digits : (Nat.toDigits 10 value).all Char.isDigit = true :=
    List.all_eq_true.mpr (fun _ member => Nat.isDigit_of_mem_toDigits (by decide) (by decide) member)
  rw [readNat, if_pos ⟨Nat.toDigits_ne_nil, digits⟩, Nat.ofDigitChars_ten_toDigits]

/-- No separator that is not a digit stands in front of a number. -/
theorem readChar_toDigits {sign : Char} (notDigit : sign.isDigit = false) (value : Nat) :
    readChar sign (Nat.toDigits 10 value) = none := by
  cases digits : Nat.toDigits 10 value with
  | nil => rfl
  | cons first rest =>
      have isDigit : first.isDigit = true := by
        apply @Nat.isDigit_of_mem_toDigits 10 value first (by decide) (by decide)
        rw [digits]
        exact List.mem_cons_self
      have different : first ≠ sign := by
        intro same
        rw [same, notDigit] at isDigit
        cases isDigit
      rw [readChar, if_neg different]

theorem readInt_intText (value : Int) : readInt (intText value) = some value := by
  cases value with
  | ofNat value =>
      have noMinus := @readChar_toDigits '-' (by decide) value
      have noPlus := @readChar_toDigits '+' (by decide) value
      simp only [readInt, intText, noMinus, noPlus, readNat_toDigits]
      rfl
  | negSucc value =>
      simp only [readInt, intText, readChar_cons, readNat_toDigits]
      rfl

end DecimalText
end WarehouseSync

import Mathlib.Data.List.Basic

namespace WarehouseSync
namespace PercentEncoding

/-!
# Percent encoding

A byte is written as the character of that code if it is safe, and as three
characters otherwise.  What was written can be read back, and a separator that
is neither safe nor one of those three characters does not occur in it.
-/

variable {safe : Char -> Bool}

def hexDigit (value : Nat) : Char :=
  Char.ofNat (if value < 10 then 48 + value else 55 + value)

def hexValue (digit : Char) : Nat :=
  if digit.toNat < 58 then digit.toNat - 48 else digit.toNat - 55

/-- One byte: itself, if it is a safe character, or its two hexadecimal digits after
the mark. -/
def encodeByte (safe : Char -> Bool) (byte : UInt8) : List Char :=
  let char := Char.ofNat byte.toNat
  if byte.toNat < 128 && safe char then [char]
  else '%' :: (Nat.toDigits 16 (256 + byte.toNat)).tail.map Char.toUpper

def encode (safe : Char -> Bool) (bytes : List UInt8) : List Char :=
  bytes.flatMap (encodeByte safe)

/-- The bytes of a text that was encoded.  A mark is taken to have two digits after
it, as an encoder writes them. -/
def decode : List Char -> List UInt8
  | '%' :: high :: low :: rest => UInt8.ofNat (16 * hexValue high + hexValue low) :: decode rest
  | char :: rest => UInt8.ofNat char.toNat :: decode rest
  | [] => []

theorem hexValue_hexDigit : forall value : Fin 16, hexValue (hexDigit value) = value := by
  decide

/-- The leading digit keeps the zeros of the other two. -/
theorem digits_eq : forall byte : Fin 256, (Nat.toDigits 16 (256 + byte.val)).tail.map Char.toUpper =
    [hexDigit (byte / 16), hexDigit (byte % 16)] := by
  decide +kernel

theorem encodeByte_escaped {byte : UInt8} (escaped : (byte.toNat < 128 && safe (Char.ofNat byte.toNat)) = false) :
    encodeByte safe byte = ['%', hexDigit (byte.toNat / 16), hexDigit (byte.toNat % 16)] := by
  unfold encodeByte
  simp only [escaped]
  exact congrArg (List.cons '%') (digits_eq ⟨byte.toNat, byte.toNat_lt⟩)

theorem toNat_ofNat : forall byte : Fin 128, (Char.ofNat byte).toNat = byte := by
  decide

theorem decode_cons {char : Char} (other : char ≠ '%') (rest : List Char) :
    decode (char :: rest) = UInt8.ofNat char.toNat :: decode rest := by
  rw [decode]
  intro high low rest same
  exact absurd same other

theorem decode_encodeByte (percent : safe '%' = false) (byte : UInt8) (rest : List Char) :
    decode (encodeByte safe byte ++ rest) = byte :: decode rest := by
  cases isSafe : (byte.toNat < 128 && safe (Char.ofNat byte.toNat)) with
  | false =>
      rw [encodeByte_escaped isSafe]
      have small := byte.toNat_lt
      have high := hexValue_hexDigit ⟨byte.toNat / 16, by omega⟩
      have low := hexValue_hexDigit ⟨byte.toNat % 16, by omega⟩
      simp only at high low
      simp only [List.cons_append, List.nil_append, decode, high, low]
      rw [Nat.div_add_mod]
      simp
  | true =>
      have parts := (Bool.and_eq_true _ _).mp isSafe
      have other : Char.ofNat byte.toNat ≠ '%' := by
        intro same
        rw [same, percent] at parts
        cases parts.2
      have code := toNat_ofNat ⟨byte.toNat, of_decide_eq_true parts.1⟩
      unfold encodeByte
      simp only [isSafe, if_true, List.cons_append, List.nil_append]
      rw [decode_cons other, code, UInt8.ofNat_toNat]

theorem decode_encode (percent : safe '%' = false) (bytes : List UInt8) : decode (encode safe bytes) = bytes := by
  induction bytes with
  | nil => rfl
  | cons byte bytes ih =>
      unfold encode at ih ⊢
      rw [List.flatMap_cons, decode_encodeByte percent, ih]

theorem mem_encodeByte {char : Char} {byte : UInt8} (member : char ∈ encodeByte safe byte) :
    safe char = true ∨ char = '%' ∨ Exists fun value : Fin 16 => char = hexDigit value := by
  cases isSafe : (byte.toNat < 128 && safe (Char.ofNat byte.toNat)) with
  | false =>
      rw [encodeByte_escaped isSafe] at member
      have small := byte.toNat_lt
      rcases List.mem_cons.mp member with same | digit
      · exact Or.inr (Or.inl same)
      · rcases List.mem_pair.mp digit with high | low
        · exact Or.inr (Or.inr ⟨⟨byte.toNat / 16, by omega⟩, high⟩)
        · exact Or.inr (Or.inr ⟨⟨byte.toNat % 16, by omega⟩, low⟩)
  | true =>
      unfold encodeByte at member
      simp only [isSafe, if_true] at member
      rw [List.mem_singleton.mp member]
      exact Or.inl ((Bool.and_eq_true _ _).mp isSafe).2

theorem not_mem_encode {separator : Char} (reserved : safe separator = false) (other : separator ≠ '%')
    (noDigit : forall value : Fin 16, separator ≠ hexDigit value) (bytes : List UInt8) :
    separator ∉ encode safe bytes := by
  intro member
  rcases List.mem_flatMap.mp member with ⟨byte, _, written⟩
  rcases mem_encodeByte written with isSafe | percent | ⟨value, digit⟩
  · rw [reserved] at isSafe
    cases isSafe
  · exact other percent
  · exact noDigit value digit

/-! ## Text -/

theorem loop_eq (bytes : ByteArray) (index : Nat) (read : List UInt8) :
    ByteArray.toList.loop bytes index read = read.reverse ++ bytes.data.toList.drop index := by
  fun_induction ByteArray.toList.loop bytes index read with
  | case1 index read inside ih =>
      have position : index < bytes.data.toList.length := inside
      rw [ih, List.reverse_cons, List.append_assoc, List.drop_eq_getElem_cons position]
      simp [ByteArray.get!, getElem!_pos, inside]
  | case2 index read outside =>
      have position : bytes.data.toList.length ≤ index := Nat.le_of_not_lt outside
      rw [List.drop_eq_nil_of_le position, List.append_nil]

def decodeText (chars : List Char) : Option String :=
  String.fromUTF8? ⟨(decode chars).toArray⟩

theorem decodeText_encode (percent : safe '%' = false) (text : String) :
    decodeText (encode safe text.toUTF8.toList) = some text := by
  unfold decodeText
  rw [decode_encode percent]
  unfold ByteArray.toList
  rw [loop_eq, List.reverse_nil, List.nil_append, List.drop_zero, Array.toArray_toList]
  unfold String.fromUTF8?
  exact dif_pos text.isValidUTF8

/-! ## Reading text that anyone may have written

Characters that are not escaped stand for their own bytes.  An escape that is
not two hexadecimal digits is an error, and so is an escaped zero.
-/

def hexDigitValue (digit : Char) : Option Nat :=
  if digit.isDigit then some (digit.toNat - 48)
  else if 'A' ≤ digit ∧ digit ≤ 'F' then some (digit.toNat - 55)
  else if 'a' ≤ digit ∧ digit ≤ 'f' then some (digit.toNat - 87)
  else none

/-- The byte of two hexadecimal digits; other characters are no digits, and zero is
refused. -/
def escapedByte (high low : Char) : Option UInt8 :=
  (hexDigitValue high).bind (fun first => (hexDigitValue low).bind (fun second =>
    if 16 * first + second = 0 then none else some (UInt8.ofNat (16 * first + second))))

/-- The bytes of a text that anyone may have written.  A mark without two digits
after it is an error. -/
def unescape : List Char -> Option (List UInt8)
  | [] => some []
  | '%' :: high :: low :: rest => (escapedByte high low).bind (fun byte => (unescape rest).map (List.cons byte))
  | char :: rest => if char = '%' then none else (unescape rest).map (String.utf8EncodeChar char ++ ·)

def unescapeText (chars : List Char) : Option String :=
  (unescape chars).bind (fun bytes => String.fromUTF8? ⟨bytes.toArray⟩)

/-- The number of bytes of a text. -/
def weight (chars : List Char) : Nat :=
  (chars.flatMap String.utf8EncodeChar).length

@[simp] theorem weight_nil : weight [] = 0 := rfl

@[simp] theorem weight_cons (char : Char) (chars : List Char) :
    weight (char :: chars) = (String.utf8EncodeChar char).length + weight chars := by
  unfold weight
  rw [List.flatMap_cons, List.length_append]

@[simp] theorem weight_append (front back : List Char) : weight (front ++ back) = weight front + weight back := by
  unfold weight
  rw [List.flatMap_append, List.length_append]

theorem utf8EncodeChar_length_pos (char : Char) : 0 < (String.utf8EncodeChar char).length := by
  rw [String.length_utf8EncodeChar]
  exact Char.utf8Size_pos char

theorem unescape_cons {char : Char} (other : char ≠ '%') (rest : List Char) :
    unescape (char :: rest) = (unescape rest).map (String.utf8EncodeChar char ++ ·) := by
  rw [unescape]
  · exact if_neg other
  · intro high low rest same
    exact absurd same other

theorem unescape_plain {chars : List Char} (plain : '%' ∉ chars) :
    unescape chars = some (chars.flatMap String.utf8EncodeChar) := by
  induction chars with
  | nil => rfl
  | cons char chars ih =>
      rw [List.mem_cons, not_or] at plain
      rw [unescape_cons (fun same => plain.1 same.symm), ih plain.2, List.flatMap_cons, Option.map_some]

theorem unescape_cons_ne_nil {char : Char} {rest : List Char} {bytes : List UInt8}
    (read : unescape (char :: rest) = some bytes) : bytes ≠ [] := by
  rintro rfl
  by_cases escape : char = '%'
  · subst escape
    unfold unescape at read
    split at read
    · rename_i empty
      cases empty
    · rcases Option.bind_eq_some_iff.mp read with ⟨byte, _, decoded⟩
      rcases Option.map_eq_some_iff.mp decoded with ⟨later, _, impossible⟩
      cases impossible
    · rename_i first others _ same
      rw [if_pos (List.cons.inj same).1.symm] at read
      cases read
  · rw [unescape_cons escape] at read
    rcases Option.map_eq_some_iff.mp read with ⟨later, _, impossible⟩
    have size := utf8EncodeChar_length_pos char
    rw [(List.append_eq_nil_iff.mp impossible).1] at size
    exact absurd size (Nat.lt_irrefl 0)

/-- Reading never makes a text longer, and an escape makes it shorter. -/
theorem unescape_length {chars : List Char} {bytes : List UInt8} (read : unescape chars = some bytes) :
    bytes.length ≤ weight chars ∧ ('%' ∈ chars -> bytes.length < weight chars) := by
  fun_induction unescape chars generalizing bytes with
  | case1 =>
      cases read
      exact ⟨Nat.le_refl _, fun escaped => absurd escaped List.not_mem_nil⟩
  | case2 high low rest ih =>
      rcases Option.bind_eq_some_iff.mp read with ⟨byte, _, decoded⟩
      rcases Option.map_eq_some_iff.mp decoded with ⟨later, found, rfl⟩
      have shorter := (ih found).1
      have first := utf8EncodeChar_length_pos high
      have second := utf8EncodeChar_length_pos low
      have percent : (String.utf8EncodeChar '%').length = 1 := rfl
      simp only [weight_cons, List.length_cons, percent]
      exact ⟨by omega, fun _ => by omega⟩
  | case3 rest => cases read
  | case4 char rest _ other ih =>
      rcases Option.map_eq_some_iff.mp read with ⟨later, found, rfl⟩
      have shorter := ih found
      simp only [weight_cons, List.length_append]
      refine ⟨by omega, fun escaped => ?_⟩
      have further := shorter.2 ((List.mem_cons.mp escaped).resolve_left (fun same => other same.symm))
      omega

/-- A byte below 128 stands only for the character of that code. -/
theorem ascii_mem_utf8EncodeChar {byte : UInt8} {char : Char} (ascii : byte.toNat < 128)
    (member : byte ∈ String.utf8EncodeChar char) : char.val.toNat = byte.toNat := by
  have bytes : forall value : Nat, value < 256 -> byte = UInt8.ofNat value -> value = byte.toNat := by
    intro value small same
    rw [same, UInt8.toNat_ofNat', Nat.mod_eq_of_lt small]
  unfold String.utf8EncodeChar at member
  simp only at member
  split at member
  · exact bytes _ (by omega) (List.mem_singleton.mp member)
  · split at member
    · rcases List.mem_pair.mp member with same | same
      · have code := bytes _ (by omega) same
        omega
      · have code := bytes _ (by omega) same
        omega
    · split at member
      · simp only [List.mem_cons, List.not_mem_nil, or_false] at member
        rcases member with same | same | same
        all_goals
          have code := bytes _ (by omega) same
          omega
      · simp only [List.mem_cons, List.not_mem_nil, or_false] at member
        rcases member with same | same | same | same
        all_goals
          have code := bytes _ (by omega) same
          omega

theorem zero_mem_utf8EncodeChar {char : Char} (zero : 0 ∈ String.utf8EncodeChar char) : char = '\x00' :=
  Char.ext (UInt32.toNat_inj.mp (ascii_mem_utf8EncodeChar (by decide) zero))

theorem hexDigitValue_lt {digit : Char} {value : Nat} (valued : hexDigitValue digit = some value) : value < 16 := by
  unfold hexDigitValue at valued
  split at valued
  · rename_i digital
    cases valued
    have bounds := (Bool.and_eq_true _ _).mp digital
    have upper := UInt32.le_iff_toNat_le.mp (of_decide_eq_true bounds.2)
    change digit.val.toNat - 48 < 16
    have nine : ('9' : Char).val.toNat = 57 := rfl
    omega
  · split at valued
    · rename_i letter
      cases valued
      have upper := UInt32.le_iff_toNat_le.mp letter.2
      change digit.val.toNat - 55 < 16
      have last : ('F' : Char).val.toNat = 70 := rfl
      omega
    · split at valued
      · rename_i letter
        cases valued
        have upper := UInt32.le_iff_toNat_le.mp letter.2
        change digit.val.toNat - 87 < 16
        have last : ('f' : Char).val.toNat = 102 := rfl
        omega
      · cases valued

/-- Reading brings no zero byte in. -/
theorem zero_not_mem_unescape {chars : List Char} {bytes : List UInt8} (read : unescape chars = some bytes)
    (clean : '\x00' ∉ chars) : 0 ∉ bytes := by
  fun_induction unescape chars generalizing bytes with
  | case1 =>
      cases read
      exact List.not_mem_nil
  | case2 high low rest ih =>
      rcases Option.bind_eq_some_iff.mp read with ⟨byte, escaped, decoded⟩
      rcases Option.map_eq_some_iff.mp decoded with ⟨later, found, rfl⟩
      simp only [List.mem_cons, not_or] at clean
      rw [List.mem_cons, not_or]
      refine ⟨fun zero => ?_, ih found clean.2.2.2⟩
      rcases Option.bind_eq_some_iff.mp escaped with ⟨first, isFirst, rest⟩
      rcases Option.bind_eq_some_iff.mp rest with ⟨second, isSecond, valued⟩
      have firstSmall := hexDigitValue_lt isFirst
      have secondSmall := hexDigitValue_lt isSecond
      split at valued
      · cases valued
      · rename_i nonzero
        cases valued
        have codes := congrArg UInt8.toNat zero
        rw [UInt8.toNat_ofNat', Nat.mod_eq_of_lt (by omega)] at codes
        exact nonzero codes.symm
  | case3 rest => cases read
  | case4 char rest _ other ih =>
      rcases Option.map_eq_some_iff.mp read with ⟨later, found, rfl⟩
      rw [List.mem_cons, not_or] at clean
      rw [List.mem_append, not_or]
      exact ⟨fun zero => clean.1 (zero_mem_utf8EncodeChar zero).symm, ih found clean.2⟩

/-- A character that is not part of an escape is still there. -/
theorem mem_unescape {char : Char} (other : char ≠ '%') (noDigit : hexDigitValue char = none) {byte : UInt8}
    (stands : byte ∈ String.utf8EncodeChar char) {chars : List Char} {bytes : List UInt8}
    (read : unescape chars = some bytes) (member : char ∈ chars) : byte ∈ bytes := by
  fun_induction unescape chars generalizing bytes with
  | case1 => exact absurd member List.not_mem_nil
  | case2 high low rest ih =>
      rcases Option.bind_eq_some_iff.mp read with ⟨first, escaped, decoded⟩
      rcases Option.map_eq_some_iff.mp decoded with ⟨later, found, rfl⟩
      rcases Option.bind_eq_some_iff.mp escaped with ⟨_, isFirst, rest⟩
      rcases Option.bind_eq_some_iff.mp rest with ⟨_, isSecond, _⟩
      simp only [List.mem_cons] at member
      rcases member with same | same | same | inside
      · exact absurd same other
      · rw [same] at noDigit
        cases noDigit.symm.trans isFirst
      · rw [same] at noDigit
        cases noDigit.symm.trans isSecond
      · exact List.mem_cons_of_mem _ (ih found inside)
  | case3 rest => cases read
  | case4 first rest _ _ ih =>
      rcases Option.map_eq_some_iff.mp read with ⟨later, found, rfl⟩
      rcases List.mem_cons.mp member with same | inside
      · rw [<- same]
        exact List.mem_append_left _ stands
      · exact List.mem_append_right _ (ih found inside)

theorem hexDigitValue_hexDigit : forall value : Fin 16, hexDigitValue (hexDigit value) = some value.val := by
  decide

/-- What was written is read back, unless it has a zero byte. -/
theorem unescape_encode (percent : safe '%' = false) (nul : safe '\x00' = false) (bytes : List UInt8) :
    unescape (encode safe bytes) = if 0 ∈ bytes then none else some bytes := by
  induction bytes with
  | nil => rfl
  | cons byte bytes ih =>
      have step : unescape (encodeByte safe byte ++ encode safe bytes) =
          if byte = 0 then none else (unescape (encode safe bytes)).map (List.cons byte) := by
        have size := byte.toNat_lt
        cases isSafe : (byte.toNat < 128 && safe (Char.ofNat byte.toNat)) with
        | false =>
            have high := hexDigitValue_hexDigit ⟨byte.toNat / 16, by omega⟩
            have low := hexDigitValue_hexDigit ⟨byte.toNat % 16, by omega⟩
            simp only at high low
            rw [encodeByte_escaped isSafe]
            simp only [List.cons_append, List.nil_append, unescape, escapedByte, high, low, Option.bind_some]
            rw [Nat.div_add_mod, UInt8.ofNat_toNat]
            have zero : byte.toNat = 0 ↔ byte = 0 := UInt8.toNat_inj (b := 0)
            by_cases same : byte = 0
            · rw [if_pos same, if_pos (zero.mpr same)]
              rfl
            · rw [if_neg same, if_neg (fun code => same (zero.mp code))]
              rfl
        | true =>
            have parts := (Bool.and_eq_true _ _).mp isSafe
            have code := toNat_ofNat ⟨byte.toNat, of_decide_eq_true parts.1⟩
            have other : Char.ofNat byte.toNat ≠ '%' := by
              intro same
              rw [same, percent] at parts
              cases parts.2
            have nonzero : byte ≠ 0 := by
              intro same
              have unsafeNul := parts.2
              rw [same] at unsafeNul
              exact absurd (nul.symm.trans unsafeNul) Bool.false_ne_true
            have single : String.utf8EncodeChar (Char.ofNat byte.toNat) = [byte] := by
              unfold String.utf8EncodeChar
              have value : (Char.ofNat byte.toNat).val.toNat = byte.toNat := code
              simp only [value]
              rw [if_pos (by have := of_decide_eq_true parts.1; omega), UInt8.ofNat_toNat]
            unfold encodeByte
            simp only [isSafe, if_true, List.cons_append, List.nil_append]
            rw [unescape_cons other, single, if_neg nonzero]
            rfl
      unfold encode at ih step ⊢
      rw [List.flatMap_cons, step, ih]
      by_cases first : byte = 0
      · rw [if_pos first, if_pos (first ▸ List.mem_cons_self)]
      · rw [if_neg first]
        by_cases later : 0 ∈ bytes
        · rw [if_pos later, if_pos (List.mem_cons_of_mem _ later)]
          rfl
        · rw [if_neg later, if_neg (fun member => (List.mem_cons.mp member).elim (fun same => first same.symm) later)]
          rfl

theorem toList_toByteArray (text : String) :
    text.toByteArray.data.toList = text.toList.flatMap String.utf8EncodeChar := by
  rw [<- String.utf8Encode_toList]
  unfold List.utf8Encode
  rw [List.data_toByteArray]

theorem fromUTF8?_eq_some {bytes : List UInt8} {text : String} :
    String.fromUTF8? ⟨bytes.toArray⟩ = some text ↔ text.toList.flatMap String.utf8EncodeChar = bytes := by
  rw [<- toList_toByteArray]
  unfold String.fromUTF8?
  constructor
  · intro read
    split at read
    · cases read
      rfl
    · cases read
  · intro same
    have whole : (⟨bytes.toArray⟩ : ByteArray) = text.toByteArray := by
      rw [<- same]
    rw [whole]
    exact dif_pos text.isValidUTF8

theorem unescapeText_eq_some {chars : List Char} {text : String} :
    unescapeText chars = some text ↔ unescape chars = some (text.toList.flatMap String.utf8EncodeChar) := by
  unfold unescapeText
  rw [Option.bind_eq_some_iff]
  constructor
  · rintro ⟨bytes, read, decoded⟩
    rw [fromUTF8?_eq_some.mp decoded]
    exact read
  · exact fun read => ⟨_, read, fromUTF8?_eq_some.mpr rfl⟩

/-- A text is read as itself exactly if it has no escape. -/
theorem unescapeText_self_iff (text : String) : unescapeText text.toList = some text ↔ '%' ∉ text.toList := by
  rw [unescapeText_eq_some]
  constructor
  · intro read escaped
    exact absurd ((unescape_length read).2 escaped) (Nat.lt_irrefl _)
  · exact unescape_plain

theorem unescapeText_encode (percent : safe '%' = false) (nul : safe '\x00' = false) (text : String) :
    unescapeText (encode safe text.toUTF8.toList) = if '\x00' ∈ text.toList then none else some text := by
  have bytes : text.toUTF8.toList = text.toList.flatMap String.utf8EncodeChar := by
    rw [<- toList_toByteArray]
    unfold ByteArray.toList
    rw [loop_eq, List.reverse_nil, List.nil_append, List.drop_zero]
    rfl
  have zero : 0 ∈ text.toList.flatMap String.utf8EncodeChar ↔ '\x00' ∈ text.toList := by
    constructor
    · intro member
      rcases List.mem_flatMap.mp member with ⟨char, inside, byte⟩
      cases zero_mem_utf8EncodeChar byte
      exact inside
    · exact fun inside => List.mem_flatMap.mpr ⟨_, inside, List.mem_cons_self⟩
  unfold unescapeText
  rw [bytes, unescape_encode percent nul]
  by_cases inside : '\x00' ∈ text.toList
  · rw [if_pos inside, if_pos (zero.mpr inside)]
    rfl
  · rw [if_neg inside, if_neg (fun member => inside (zero.mp member)), Option.bind_some]
    exact fromUTF8?_eq_some.mpr rfl

end PercentEncoding
end WarehouseSync

import Mathlib.Data.List.Basic
import Mathlib.Data.List.Nodup
import Mathlib.Tactic.Ring

namespace WarehouseSync
namespace JsonText

/-!
# JSON values and their text

The values are built from objects, arrays, strings, integers, booleans and null;
an object is the list of its members in order.  `print` writes the ASCII text of
a value with a blank after every comma and colon.  `parse` reads any JSON text
of these values, with blanks anywhere between its tokens and every form of
escape in its strings, and nothing else: a number with a fraction or an exponent
is not one of them, and a lone surrogate is not a character.  Reading what was
written gives the value back.
-/

/-- A value with integers as its only numbers.  The members of an object are in
order and may repeat a name, as they may in a text. -/
inductive Json where
  | null
  | bool (value : Bool)
  | number (value : Int)
  | string (text : String)
  | array (items : List Json)
  | object (members : List (String × Json))

/-- The last `count` hexadecimal digits of a number. -/
def hexDigits : Nat -> Nat -> List Char
  | 0, _ => []
  | count + 1, value => hexDigits count (value / 16) ++ [Nat.digitChar (value % 16)]

/-- A sixteen-bit unit. -/
def printUnit (value : Nat) : List Char :=
  '\\' :: 'u' :: hexDigits 4 value

/-- One character of a string, as it is written in ASCII.  A character beyond the
sixteen-bit range is a pair of surrogates. -/
def printChar (char : Char) : List Char :=
  if char = '"' then ['\\', '"']
  else if char = '\\' then ['\\', '\\']
  else if char = '\n' then ['\\', 'n']
  else if char = '\r' then ['\\', 'r']
  else if char = '\t' then ['\\', 't']
  else if char.toNat = 12 then ['\\', 'f']
  else if char.toNat = 8 then ['\\', 'b']
  else if 32 ≤ char.toNat ∧ char.toNat ≤ 126 then [char]
  else if char.toNat < 65536 then printUnit char.toNat
  else
    printUnit (55296 + (char.toNat - 65536) / 1024) ++ printUnit (56320 + (char.toNat - 65536) % 1024)

def printString (text : String) : List Char :=
  '"' :: (text.toList.flatMap printChar ++ ['"'])

def printInt : Int -> List Char
  | Int.ofNat value => Nat.toDigits 10 value
  | Int.negSucc value => '-' :: Nat.toDigits 10 (value + 1)

mutual

/-- The text of a value, with a blank after each comma and colon. -/
def print : Json -> List Char
  | .null => ['n', 'u', 'l', 'l']
  | .bool true => ['t', 'r', 'u', 'e']
  | .bool false => ['f', 'a', 'l', 's', 'e']
  | .number value => printInt value
  | .string text => printString text
  | .array [] => ['[', ']']
  | .array (item :: items) => '[' :: (print item ++ printItems items)
  | .object [] => ['{', '}']
  | .object ((name, value) :: members) =>
      '{' :: (printString name ++ ':' :: ' ' :: (print value ++ printMembers members))

/-- The items after the first, with the closing bracket. -/
def printItems : List Json -> List Char
  | [] => [']']
  | item :: items => ',' :: ' ' :: (print item ++ printItems items)

/-- The members after the first, with the closing bracket. -/
def printMembers : List (String × Json) -> List Char
  | [] => ['}']
  | (name, value) :: members =>
      ',' :: ' ' :: (printString name ++ ':' :: ' ' :: (print value ++ printMembers members))

end

/-! ## Reading -/

def isBlank (char : Char) : Bool :=
  char = ' ' || char = '\n' || char = '\r' || char = '\t'

def skipBlanks (text : List Char) : List Char :=
  text.dropWhile isBlank

def hexValue (char : Char) : Option Nat :=
  if char.isDigit then some (char.toNat - 48)
  else if 'a' ≤ char ∧ char ≤ 'f' then some (char.toNat - 87)
  else if 'A' ≤ char ∧ char ≤ 'F' then some (char.toNat - 55)
  else none

/-- A number of hexadecimal digits at the front of a text. -/
def readHex : Nat -> Nat -> List Char -> Option (Nat × List Char)
  | 0, value, text => some (value, text)
  | _ + 1, _, [] => none
  | count + 1, value, char :: text =>
      match hexValue char with
      | some digit => readHex count (16 * value + digit) text
      | none => none

/-- The low half of a surrogate pair. -/
def readLow : List Char -> Option (Nat × List Char)
  | '\\' :: 'u' :: text =>
      match readHex 4 0 text with
      | some (unit, rest) => if 56320 ≤ unit ∧ unit < 57344 then some (unit - 56320, rest) else none
      | none => none
  | _ => none

/-- The character after a backslash and `u`.  Half of a surrogate pair is no
character, so a text with one has no value here. -/
def readUnicode (text : List Char) : Option (Char × List Char) :=
  match readHex 4 0 text with
  | none => none
  | some (unit, rest) =>
      if 55296 ≤ unit ∧ unit < 56320 then
        (readLow rest).map (fun low => (Char.ofNat (65536 + (unit - 55296) * 1024 + low.1), low.2))
      else if 56320 ≤ unit ∧ unit < 57344 then none
      else some (Char.ofNat unit, rest)

/-- The character after a backslash. -/
def readEscape : List Char -> Option (Char × List Char)
  | [] => none
  | char :: rest =>
      if char = '"' then some ('"', rest)
      else if char = '\\' then some ('\\', rest)
      else if char = '/' then some ('/', rest)
      else if char = 'n' then some ('\n', rest)
      else if char = 'r' then some ('\r', rest)
      else if char = 't' then some ('\t', rest)
      else if char = 'f' then some (Char.ofNat 12, rest)
      else if char = 'b' then some (Char.ofNat 8, rest)
      else if char = 'u' then readUnicode rest
      else none

/-- The characters up to the closing quote.  The counter bounds the number of
characters, so that the recursion is structural. -/
def readChars : Nat -> List Char -> Option (List Char × List Char)
  | 0, _ => none
  | _ + 1, [] => none
  | fuel + 1, char :: rest =>
      if char = '"' then some ([], rest)
      else if char = '\\' then
        match readEscape rest with
        | some (read, rest) => (readChars fuel rest).map (fun found => (read :: found.1, found.2))
        | none => none
      else if char.toNat < 32 then none
      else (readChars fuel rest).map (fun found => (char :: found.1, found.2))

/-- A string at the front of a text. -/
def readString : List Char -> Option (String × List Char)
  | [] => none
  | char :: rest =>
      if char = '"' then
        (readChars (rest.length + 1) rest).map (fun found => (String.ofList found.1, found.2))
      else none

/-- The digits at the front of a text.  A number has no leading zero. -/
def readNat (text : List Char) : Option (Nat × List Char) :=
  let digits := text.takeWhile Char.isDigit
  if digits = [] ∨ (digits.head? = some '0' ∧ digits.length ≠ 1) then none
  else some (Nat.ofDigitChars 10 digits 0, text.dropWhile Char.isDigit)

def readInt : List Char -> Option (Int × List Char)
  | [] => none
  | char :: rest =>
      if char = '-' then (readNat rest).map (fun found => (-(found.1 : Int), found.2))
      else (readNat (char :: rest)).map (fun found => ((found.1 : Int), found.2))

/-- A fixed word at the front of a text. -/
def readWord (word text : List Char) : Option (List Char) :=
  if word.isPrefixOf text = true then some (text.drop word.length) else none

mutual

/-- A value at the front of a text.  The counter bounds the depth and the number of
items; the length of the text is always enough. -/
def readValue : Nat -> List Char -> Option (Json × List Char)
  | 0, _ => none
  | _ + 1, [] => none
  | fuel + 1, char :: rest =>
      if char = '"' then (readString (char :: rest)).map (fun found => (.string found.1, found.2))
      else if char = '[' then
        if (skipBlanks rest).head? = some ']' then some (.array [], (skipBlanks rest).tail)
        else (readItems fuel rest).map (fun found => (.array found.1, found.2))
      else if char = '{' then
        if (skipBlanks rest).head? = some '}' then some (.object [], (skipBlanks rest).tail)
        else (readMembers fuel rest).map (fun found => (.object found.1, found.2))
      else if char = 'n' then (readWord ['u', 'l', 'l'] rest).map (fun rest => (.null, rest))
      else if char = 't' then (readWord ['r', 'u', 'e'] rest).map (fun rest => (.bool true, rest))
      else if char = 'f' then (readWord ['a', 'l', 's', 'e'] rest).map (fun rest => (.bool false, rest))
      else (readInt (char :: rest)).map (fun found => (.number found.1, found.2))

/-- At least one item and the closing bracket. -/
def readItems : Nat -> List Char -> Option (List Json × List Char)
  | 0, _ => none
  | fuel + 1, text =>
      match readValue fuel (skipBlanks text) with
      | none => none
      | some (item, rest) =>
          match skipBlanks rest with
          | [] => none
          | char :: rest =>
              if char = ',' then (readItems fuel rest).map (fun found => (item :: found.1, found.2))
              else if char = ']' then some ([item], rest)
              else none

/-- At least one member and the closing bracket. -/
def readMembers : Nat -> List Char -> Option (List (String × Json) × List Char)
  | 0, _ => none
  | fuel + 1, text =>
      match readString (skipBlanks text) with
      | none => none
      | some (name, rest) =>
          match skipBlanks rest with
          | [] => none
          | colon :: rest =>
              if colon = ':' then
                match readValue fuel (skipBlanks rest) with
                | none => none
                | some (value, rest) =>
                    match skipBlanks rest with
                    | [] => none
                    | char :: rest =>
                        if char = ',' then
                          (readMembers fuel rest).map (fun found => ((name, value) :: found.1, found.2))
                        else if char = '}' then some ([(name, value)], rest)
                        else none
              else none

end

/-- The value a whole text denotes.  Blanks may stand around it, and nothing else.
-/
def parse (text : List Char) : Option Json :=
  match readValue (text.length + 1) (skipBlanks text) with
  | some (value, rest) => if skipBlanks rest = [] then some value else none
  | none => none

theorem hexValue_digitChar {value : Nat} (digit : value < 16) :
    hexValue (Nat.digitChar value) = some value := by
  have all : forall value : Fin 16, hexValue (Nat.digitChar value) = some value.val := by decide
  exact all ⟨value, digit⟩

theorem readHex_hexDigits (count more value number : Nat) (rest : List Char) :
    readHex (count + more) value (hexDigits count number ++ rest) =
      readHex more (value * 16 ^ count + number % 16 ^ count) rest := by
  induction count generalizing more number rest with
  | zero => simp [hexDigits, Nat.mod_one]
  | succ count ih =>
      have digit : number % 16 < 16 := Nat.mod_lt _ (by decide)
      have shifted : 16 * (value * 16 ^ count + number / 16 % 16 ^ count) + number % 16 =
          value * 16 ^ (count + 1) + number % 16 ^ (count + 1) := by
        rw [pow_succ', Nat.mod_mul]
        ring
      rw [hexDigits, List.append_assoc, Nat.add_assoc, Nat.add_comm 1 more, ih, List.cons_append,
        List.nil_append, readHex, hexValue_digitChar digit]
      simp only [shifted]

/-- A unit of sixteen bits reads back. -/
theorem readHex_four {unit : Nat} (fits : unit < 65536) (rest : List Char) :
    readHex 4 0 (hexDigits 4 unit ++ rest) = some (unit, rest) := by
  have power : 16 ^ 4 = 65536 := by norm_num
  have read := readHex_hexDigits 4 0 0 unit rest
  rw [power, Nat.mod_eq_of_lt fits, Nat.zero_mul, Nat.zero_add, readHex] at read
  exact read

/-- A character is no surrogate and at most `0x10ffff`. -/
theorem toNat_bounds (char : Char) :
    char.toNat < 55296 ∨ (57344 ≤ char.toNat ∧ char.toNat < 1114112) := by
  cases char.valid with
  | inl low => exact Or.inl low
  | inr high => exact Or.inr ⟨high.1, high.2⟩

theorem readUnicode_unit {char : Char} (small : char.toNat < 65536) (rest : List Char) :
    readUnicode (hexDigits 4 char.toNat ++ rest) = some (char, rest) := by
  have bounds := toNat_bounds char
  rw [readUnicode, readHex_four small]
  simp only
  rw [if_neg (by omega), if_neg (by omega), Char.ofNat_toNat]

theorem readUnicode_pair {char : Char} (large : 65536 ≤ char.toNat) (rest : List Char) :
    readUnicode (hexDigits 4 (55296 + (char.toNat - 65536) / 1024) ++
        (printUnit (56320 + (char.toNat - 65536) % 1024) ++ rest)) = some (char, rest) := by
  have bounds := toNat_bounds char
  have low : (char.toNat - 65536) % 1024 < 1024 := Nat.mod_lt _ (by decide)
  have whole := Nat.div_add_mod (char.toNat - 65536) 1024
  have number : 65536 + (55296 + (char.toNat - 65536) / 1024 - 55296) * 1024 +
      (56320 + (char.toNat - 65536) % 1024 - 56320) = char.toNat := by omega
  have second : readLow (printUnit (56320 + (char.toNat - 65536) % 1024) ++ rest) =
      some (56320 + (char.toNat - 65536) % 1024 - 56320, rest) := by
    rw [printUnit, List.cons_append, List.cons_append, readLow, readHex_four (by omega)]
    simp only
    rw [if_pos (by omega)]
  rw [readUnicode, readHex_four (by omega)]
  simp only
  rw [if_pos (by omega), second, Option.map_some, number, Char.ofNat_toNat]

theorem readEscape_unicode (text : List Char) : readEscape ('u' :: text) = readUnicode text :=
  rfl

/-- How a character is written: as a backslash and a letter that stands for it, as
itself, as its unit or as its two surrogates.  Reading back is proved for each of
the four. -/
inductive Printed (char : Char) : List Char -> Prop where
  | letter {letter : Char} : (forall rest, readEscape (letter :: rest) = some (char, rest)) ->
      Printed char ['\\', letter]
  | plain : char ≠ '"' -> char ≠ '\\' -> 32 ≤ char.toNat -> Printed char [char]
  | unit : char.toNat < 65536 -> Printed char (printUnit char.toNat)
  | pair : 65536 ≤ char.toNat -> Printed char
      (printUnit (55296 + (char.toNat - 65536) / 1024) ++ printUnit (56320 + (char.toNat - 65536) % 1024))

theorem printed_letter {char letter written : Char} (same : char = written)
    (reads : forall rest, readEscape (letter :: rest) = some (written, rest)) :
    Printed char ['\\', letter] := by
  apply Printed.letter
  rw [same]
  exact reads

theorem printed_printChar (char : Char) : Printed char (printChar char) := by
  have control (number : Nat) (equal : char.toNat = number) : char = Char.ofNat number := by
    rw [← equal, Char.ofNat_toNat]
  unfold printChar
  by_cases quote : char = '"'
  · rw [if_pos quote]
    exact printed_letter quote (fun _ => rfl)
  rw [if_neg quote]
  by_cases backslash : char = '\\'
  · rw [if_pos backslash]
    exact printed_letter backslash (fun _ => rfl)
  rw [if_neg backslash]
  by_cases newline : char = '\n'
  · rw [if_pos newline]
    exact printed_letter newline (fun _ => rfl)
  rw [if_neg newline]
  by_cases carriage : char = '\r'
  · rw [if_pos carriage]
    exact printed_letter carriage (fun _ => rfl)
  rw [if_neg carriage]
  by_cases tab : char = '\t'
  · rw [if_pos tab]
    exact printed_letter tab (fun _ => rfl)
  rw [if_neg tab]
  by_cases formFeed : char.toNat = 12
  · rw [if_pos formFeed]
    exact printed_letter (control 12 formFeed) (fun _ => rfl)
  rw [if_neg formFeed]
  by_cases backspace : char.toNat = 8
  · rw [if_pos backspace]
    exact printed_letter (control 8 backspace) (fun _ => rfl)
  rw [if_neg backspace]
  by_cases printable : 32 ≤ char.toNat ∧ char.toNat ≤ 126
  · rw [if_pos printable]
    exact Printed.plain quote backslash printable.1
  rw [if_neg printable]
  by_cases small : char.toNat < 65536
  · rw [if_pos small]
    exact Printed.unit small
  · rw [if_neg small]
    exact Printed.pair (Nat.le_of_not_lt small)

/-- One written character is read as that character. -/
theorem readChars_printChar (fuel : Nat) (char : Char) (rest : List Char) :
    readChars (fuel + 1) (printChar char ++ rest) =
      (readChars fuel rest).map (fun found => (char :: found.1, found.2)) := by
  have escaped (text : List Char) (read : readEscape text = some (char, rest)) :
      readChars (fuel + 1) ('\\' :: text) =
        (readChars fuel rest).map (fun found => (char :: found.1, found.2)) := by
    rw [readChars, if_neg (by decide), if_pos rfl, read]
  have shape := printed_printChar char
  generalize printChar char = written at shape ⊢
  cases shape with
  | letter reads => exact escaped _ (reads rest)
  | plain notQuote notBackslash printable =>
      rw [List.cons_append, List.nil_append, readChars, if_neg notQuote, if_neg notBackslash,
        if_neg (Nat.not_lt.mpr printable)]
  | unit small =>
      rw [printUnit, List.cons_append, List.cons_append]
      apply escaped
      rw [readEscape_unicode]
      exact readUnicode_unit small rest
  | pair large =>
      rw [List.append_assoc, printUnit, List.cons_append, List.cons_append]
      apply escaped
      rw [readEscape_unicode]
      exact readUnicode_pair large rest

theorem readChars_printed {fuel : Nat} (chars : List Char) (enough : chars.length < fuel)
    (rest : List Char) :
    readChars fuel (chars.flatMap printChar ++ '"' :: rest) = some (chars, rest) := by
  induction chars generalizing fuel with
  | nil =>
      cases fuel with
      | zero => cases enough
      | succ fuel => rfl
  | cons char chars ih =>
      cases fuel with
      | zero => cases enough
      | succ fuel =>
          have fewer : chars.length < fuel := Nat.lt_of_succ_lt_succ enough
          rw [List.flatMap_cons, List.append_assoc, readChars_printChar, ih fewer]
          rfl

theorem length_printChar_pos (char : Char) : 0 < (printChar char).length := by
  have shape := printed_printChar char
  generalize printChar char = written at shape ⊢
  cases shape with
  | letter _ => exact Nat.succ_pos 1
  | plain _ _ _ => exact Nat.succ_pos 0
  | unit _ => exact Nat.succ_pos _
  | pair _ =>
      rw [List.length_append]
      exact Nat.add_pos_left (Nat.succ_pos _) _

theorem length_le_flatMap_printChar (chars : List Char) :
    chars.length ≤ (chars.flatMap printChar).length := by
  induction chars with
  | nil => exact Nat.le_refl _
  | cons char chars ih =>
      have positive := length_printChar_pos char
      rw [List.flatMap_cons, List.length_append, List.length_cons]
      omega

theorem readString_printString (text : String) (rest : List Char) :
    readString (printString text ++ rest) = some (text, rest) := by
  have enough : text.toList.length < (text.toList.flatMap printChar ++ '"' :: rest).length + 1 := by
    have written := length_le_flatMap_printChar text.toList
    rw [List.length_append]
    omega
  rw [printString, List.cons_append, List.append_assoc, List.cons_append, List.nil_append, readString,
    if_pos rfl, readChars_printed text.toList enough rest, Option.map_some, String.ofList_toList]

/-- What follows a number does not continue it. -/
def Stops (rest : List Char) : Prop :=
  forall char : Char, rest.head? = some char -> char.isDigit = false

theorem toDigits_cons (value : Nat) :
    Exists fun char : Char => Exists fun text : List Char =>
      Nat.toDigits 10 value = char :: text ∧ char.isDigit = true := by
  cases digits : Nat.toDigits 10 value with
  | nil => exact absurd digits Nat.toDigits_ne_nil
  | cons char text =>
      refine ⟨char, text, rfl, ?_⟩
      apply @Nat.isDigit_of_mem_toDigits 10 value char (by decide) (by decide)
      rw [digits]
      exact List.mem_cons_self

/-- A positive number is written without a leading zero. -/
theorem head_toDigits {value : Nat} (positive : 0 < value) :
    (Nat.toDigits 10 value).head? ≠ some '0' := by
  induction value using Nat.strong_induction_on with
  | _ value ih =>
      by_cases short : value < 10
      · have nonzero : forall digit : Fin 10, 0 < digit.val -> Nat.digitChar digit.val ≠ '0' := by decide
        rw [Nat.toDigits_of_lt_base short, List.head?_cons]
        intro zero
        exact nonzero ⟨value, short⟩ positive (Option.some.inj zero)
      · have whole : 10 * (value / 10) + value % 10 = value := Nat.div_add_mod value 10
        have split := @Nat.toDigits_append_toDigits 10 (value / 10) (value % 10)
          (by decide) (by omega) (Nat.mod_lt _ (by decide))
        rw [whole] at split
        rw [← split, List.head?_append_of_ne_nil _ Nat.toDigits_ne_nil]
        exact ih (value / 10) (by omega) (by omega)

theorem readNat_toDigits (value : Nat) {rest : List Char} (stops : Stops rest) :
    readNat (Nat.toDigits 10 value ++ rest) = some (value, rest) := by
  have digits : forall char, char ∈ Nat.toDigits 10 value -> char.isDigit = true :=
    fun _ member => Nat.isDigit_of_mem_toDigits (by decide) (by decide) member
  have after : rest.takeWhile Char.isDigit = [] ∧ rest.dropWhile Char.isDigit = rest := by
    cases rest with
    | nil => exact ⟨rfl, rfl⟩
    | cons char rest =>
        have stop := stops char rfl
        simp [stop]
  have front : (Nat.toDigits 10 value ++ rest).takeWhile Char.isDigit = Nat.toDigits 10 value := by
    rw [List.takeWhile_append_of_pos digits, after.1, List.append_nil]
  have back : (Nat.toDigits 10 value ++ rest).dropWhile Char.isDigit = rest := by
    rw [List.dropWhile_append_of_pos digits, after.2]
  have canonical : ¬ (Nat.toDigits 10 value = [] ∨
      ((Nat.toDigits 10 value).head? = some '0' ∧ (Nat.toDigits 10 value).length ≠ 1)) := by
    rintro (empty | ⟨zero, long⟩)
    · exact Nat.toDigits_ne_nil empty
    · cases value with
      | zero => exact long rfl
      | succ value => exact head_toDigits (Nat.succ_pos value) zero
  simp only [readNat, front, back]
  rw [if_neg canonical, Nat.ofDigitChars_ten_toDigits]

theorem readInt_printInt (value : Int) {rest : List Char} (stops : Stops rest) :
    readInt (printInt value ++ rest) = some (value, rest) := by
  cases value with
  | negSucc value =>
      rw [printInt, List.cons_append, readInt, if_pos rfl, readNat_toDigits _ stops]
      rfl
  | ofNat value =>
      have read := readNat_toDigits value stops
      rcases toDigits_cons value with ⟨char, text, written, digit⟩
      have notSign : char ≠ '-' := by
        intro sign
        rw [sign] at digit
        cases digit
      rw [written, List.cons_append] at read
      rw [printInt, written, List.cons_append, readInt, if_neg notSign, read]
      rfl

/-! ## Reading the text of a value -/

/-- The first character of a value tells which kind of value it is. -/
theorem print_cons (value : Json) : Exists fun char : Char => Exists fun text : List Char =>
    print value = char :: text ∧ isBlank char = false ∧ char ≠ ']' := by
  cases value with
  | null => exact ⟨'n', _, print.eq_1, by decide, by decide⟩
  | bool value =>
      cases value with
      | true => exact ⟨'t', _, print.eq_2, by decide, by decide⟩
      | false => exact ⟨'f', _, print.eq_3, by decide, by decide⟩
  | string text => exact ⟨'"', _, (print.eq_5 text), by decide, by decide⟩
  | number value =>
      rw [print]
      cases value with
      | negSucc value => exact ⟨'-', _, rfl, by decide, by decide⟩
      | ofNat value =>
          rcases toDigits_cons value with ⟨char, text, written, digit⟩
          refine ⟨char, text, written, ?_, ?_⟩
          · by_contra blank
            simp only [isBlank, Bool.not_eq_false, Bool.or_eq_true, decide_eq_true_eq] at blank
            rcases blank with ((rfl | rfl) | rfl) | rfl <;> cases digit
          · intro bracket
            rw [bracket] at digit
            cases digit
  | array items =>
      cases items with
      | nil => exact ⟨'[', _, by rw [print], by decide, by decide⟩
      | cons item items => exact ⟨'[', _, by rw [print], by decide, by decide⟩
  | object members =>
      cases members with
      | nil => exact ⟨'{', _, by rw [print], by decide, by decide⟩
      | cons member members =>
          cases member with
          | mk name value => exact ⟨'{', _, by rw [print], by decide, by decide⟩

theorem skipBlanks_print (value : Json) (rest : List Char) :
    skipBlanks (print value ++ rest) = print value ++ rest := by
  rcases print_cons value with ⟨char, text, written, solid, _⟩
  rw [written, List.cons_append, skipBlanks, List.dropWhile_cons_of_neg (by simp [solid])]

theorem skipBlanks_blank (text : List Char) : skipBlanks (' ' :: text) = skipBlanks text := rfl

theorem skipBlanks_printString (text : String) (rest : List Char) :
    skipBlanks (printString text ++ rest) = printString text ++ rest := rfl

/-- A number is not taken for another kind of value. -/
theorem readValue_printInt (fuel : Nat) (value : Int) {rest : List Char} (stops : Stops rest) :
    readValue (fuel + 1) (printInt value ++ rest) = some (.number value, rest) := by
  have read := readInt_printInt value stops
  have number (char : Char) (text : List Char) (first : char.isDigit = true ∨ char = '-')
      (found : readInt (char :: text) = some (value, rest)) :
      readValue (fuel + 1) (char :: text) = some (.number value, rest) := by
    have other (letter : Char) (notDigit : letter.isDigit = false) (notSign : letter ≠ '-') :
        char ≠ letter := by
      rintro rfl
      cases first with
      | inl digit => exact absurd digit (by simp [notDigit])
      | inr sign => exact notSign sign
    rw [readValue, if_neg (other '"' rfl (by decide)), if_neg (other '[' rfl (by decide)),
      if_neg (other '{' rfl (by decide)), if_neg (other 'n' rfl (by decide)),
      if_neg (other 't' rfl (by decide)), if_neg (other 'f' rfl (by decide)), found]
    rfl
  cases value with
  | negSucc value => exact number '-' _ (Or.inr rfl) read
  | ofNat value =>
      rcases toDigits_cons value with ⟨char, text, written, digit⟩
      rw [printInt, written, List.cons_append] at read ⊢
      exact number char _ (Or.inl digit) read

theorem stops_printItems (items : List Json) (rest : List Char) : Stops (printItems items ++ rest) := by
  intro char first
  cases items with
  | nil =>
      cases first
      rfl
  | cons item items =>
      rw [printItems] at first
      cases first
      rfl

theorem stops_printMembers (members : List (String × Json)) (rest : List Char) :
    Stops (printMembers members ++ rest) := by
  intro char first
  cases members with
  | nil =>
      cases first
      rfl
  | cons member members =>
      rw [printMembers] at first
      cases first
      rfl

/-- With so many rounds, every text of at most that length reads back, whatever
follows it.  The three parts are one induction on the rounds. -/
structure Reads (fuel : Nat) : Prop where
  values : forall (value : Json) (rest : List Char), (print value).length ≤ fuel -> Stops rest ->
    readValue fuel (print value ++ rest) = some (value, rest)
  items : forall (item : Json) (items : List Json) (rest : List Char),
    (print item).length + (printItems items).length ≤ fuel ->
      readItems fuel (print item ++ (printItems items ++ rest)) = some (item :: items, rest)
  members : forall (name : String) (value : Json) (members : List (String × Json)) (rest : List Char),
    (print value).length + (printMembers members).length ≤ fuel ->
      readMembers fuel
          (printString name ++ ':' :: ' ' :: (print value ++ (printMembers members ++ rest))) =
        some ((name, value) :: members, rest)

theorem readValue_succ {fuel : Nat} (reads : Reads fuel) (value : Json) (rest : List Char)
    (enough : (print value).length ≤ fuel + 1) (stops : Stops rest) :
    readValue (fuel + 1) (print value ++ rest) = some (value, rest) := by
  cases value with
  | null => rfl
  | bool value =>
      cases value with
      | true => rfl
      | false => rfl
  | number value =>
      rw [print]
      exact readValue_printInt fuel value stops
  | string text =>
      have read := readString_printString text rest
      rw [printString, List.cons_append] at read
      rw [print, printString, List.cons_append, readValue, if_pos rfl, read]
      rfl
  | array items =>
      cases items with
      | nil => rfl
      | cons item items =>
          rw [print, List.length_cons, List.length_append] at enough
          have read := reads.items item items rest (by omega)
          rcases print_cons item with ⟨char, text, written, _, notClosing⟩
          have head : (print item ++ (printItems items ++ rest)).head? ≠ some ']' := by
            rw [written, List.cons_append, List.head?_cons]
            intro same
            exact notClosing (Option.some.inj same)
          rw [print, List.cons_append, List.append_assoc, readValue, if_neg (by decide), if_pos rfl,
            skipBlanks_print, if_neg head, read]
          rfl
  | object members =>
      cases members with
      | nil => rfl
      | cons member members =>
          cases member with
          | mk name value =>
              rw [print] at enough
              simp only [List.length_cons, List.length_append] at enough
              have read := reads.members name value members rest (by omega)
              have text : printString name ++ ':' :: ' ' :: (print value ++ printMembers members) ++ rest =
                  printString name ++ ':' :: ' ' :: (print value ++ (printMembers members ++ rest)) := by
                simp only [List.append_assoc, List.cons_append]
              have head : (printString name ++
                  ':' :: ' ' :: (print value ++ (printMembers members ++ rest))).head? ≠ some '}' := by
                rw [printString, List.cons_append, List.head?_cons]
                decide
              rw [print, List.cons_append, text, readValue, if_neg (by decide), if_neg (by decide),
                if_pos rfl, skipBlanks_printString, if_neg head, read]
              rfl

theorem readItems_blank (fuel : Nat) (text : List Char) :
    readItems fuel (' ' :: text) = readItems fuel text := by
  cases fuel with
  | zero => rfl
  | succ fuel => rw [readItems, readItems, skipBlanks_blank]

theorem readMembers_blank (fuel : Nat) (text : List Char) :
    readMembers fuel (' ' :: text) = readMembers fuel text := by
  cases fuel with
  | zero => rfl
  | succ fuel => rw [readMembers, readMembers, skipBlanks_blank]

theorem readItems_succ {fuel : Nat} (reads : Reads fuel) (item : Json) (items : List Json)
    (rest : List Char) (enough : (print item).length + (printItems items).length ≤ fuel + 1) :
    readItems (fuel + 1) (print item ++ (printItems items ++ rest)) = some (item :: items, rest) := by
  cases items with
  | nil =>
      rw [printItems, List.length_singleton] at enough
      have first := reads.values item ([']'] ++ rest) (by omega) (stops_printItems [] rest)
      rw [readItems, skipBlanks_print, printItems, first]
      rfl
  | cons next items =>
      rw [printItems] at enough
      simp only [List.length_cons, List.length_append] at enough
      have first := reads.values item (printItems (next :: items) ++ rest) (by omega)
        (stops_printItems (next :: items) rest)
      have others := reads.items next items rest (by omega)
      rw [readItems, skipBlanks_print, first, printItems, List.cons_append, List.cons_append,
        List.append_assoc]
      show (readItems fuel (' ' :: (print next ++ (printItems items ++ rest)))).map
        (fun found => (item :: found.1, found.2)) = _
      rw [readItems_blank, others]
      rfl

theorem readMembers_succ {fuel : Nat} (reads : Reads fuel) (name : String) (value : Json)
    (members : List (String × Json)) (rest : List Char)
    (enough : (print value).length + (printMembers members).length ≤ fuel + 1) :
    readMembers (fuel + 1)
        (printString name ++ ':' :: ' ' :: (print value ++ (printMembers members ++ rest))) =
      some ((name, value) :: members, rest) := by
  have colon (text : List Char) : skipBlanks (':' :: text) = ':' :: text := rfl
  cases members with
  | nil =>
      rw [printMembers, List.length_singleton] at enough
      have first := reads.values value (['}'] ++ rest) (by omega) (stops_printMembers [] rest)
      rw [readMembers, skipBlanks_printString, readString_printString]
      simp only [colon, if_true]
      rw [skipBlanks_blank, skipBlanks_print, printMembers, first]
      rfl
  | cons next members =>
      cases next with
      | mk nextName nextValue =>
          rw [printMembers] at enough
          simp only [List.length_cons, List.length_append] at enough
          have first := reads.values value (printMembers ((nextName, nextValue) :: members) ++ rest)
            (by omega) (stops_printMembers ((nextName, nextValue) :: members) rest)
          have others := reads.members nextName nextValue members rest (by omega)
          rw [readMembers, skipBlanks_printString, readString_printString]
          simp only [colon, if_true]
          rw [skipBlanks_blank, skipBlanks_print, first, printMembers]
          simp only [List.cons_append, List.append_assoc]
          show (readMembers fuel (' ' :: (printString nextName ++
              ':' :: ' ' :: (print nextValue ++ (printMembers members ++ rest))))).map
            (fun found => ((name, value) :: found.1, found.2)) = _
          rw [readMembers_blank, others]
          rfl

theorem reads (fuel : Nat) : Reads fuel := by
  induction fuel with
  | zero =>
      have written (value : Json) : 0 < (print value).length := by
        rcases print_cons value with ⟨char, text, same, _⟩
        rw [same, List.length_cons]
        exact Nat.succ_pos _
      exact {
        values := fun value _ enough => absurd (written value) (by omega)
        items := fun item _ _ enough => absurd (written item) (by omega)
        members := fun _ value _ _ enough => absurd (written value) (by omega) }
  | succ fuel ih =>
      exact {
        values := readValue_succ ih
        items := readItems_succ ih
        members := readMembers_succ ih }

/-- Reading what was written gives the value back. -/
@[simp] theorem parse_print (value : Json) : parse (print value) = some value := by
  have read := (reads ((print value).length + 1)).values value [] (Nat.le_succ _)
    (by intro _ impossible; cases impossible)
  have solid := skipBlanks_print value []
  rw [List.append_nil] at read solid
  rw [parse, solid, read]
  rfl

theorem length_readHex {count value : Nat} {text : List Char} {found : Nat × List Char}
    (read : readHex count value text = some found) : found.2.length ≤ text.length := by
  induction count generalizing value text with
  | zero =>
      rw [readHex] at read
      rw [← Option.some.inj read]
  | succ count ih =>
      cases text with
      | nil => cases read
      | cons char text =>
          rw [readHex] at read
          split at read
          · exact Nat.le_succ_of_le (ih read)
          · cases read

theorem length_readLow {text : List Char} {found : Nat × List Char} (read : readLow text = some found) :
    found.2.length ≤ text.length := by
  unfold readLow at read
  split at read
  · split at read
    · rename_i text unit rest hex
      have shorter := length_readHex hex
      split at read
      · rw [← Option.some.inj read]
        simp only [List.length_cons] at shorter ⊢
        omega
      · cases read
    · cases read
  · cases read

theorem length_readUnicode {text : List Char} {found : Char × List Char}
    (read : readUnicode text = some found) : found.2.length ≤ text.length := by
  unfold readUnicode at read
  split at read
  · cases read
  · rename_i unit rest hex
    have shorter := length_readHex hex
    split at read
    · rcases Option.map_eq_some_iff.mp read with ⟨low, second, same⟩
      have lower := length_readLow second
      rw [← same]
      exact Nat.le_trans lower shorter
    · split at read
      · cases read
      · rw [← Option.some.inj read]
        exact shorter

/-- A choice that is a letter leaves the rest. -/
theorem rest_of_choice {condition : Prop} [Decidable condition] {written : Char} {rest : List Char}
    {others : Option (Char × List Char)} {found : Char × List Char}
    (read : (if condition then some (written, rest) else others) = some found) :
    found.2 = rest ∨ others = some found := by
  split at read
  · rw [← Option.some.inj read]
    exact Or.inl rfl
  · exact Or.inr read

theorem rest_readEscape {char : Char} {rest : List Char} {found : Char × List Char}
    (read : readEscape (char :: rest) = some found) : found.2 = rest ∨ readUnicode rest = some found := by
  rw [readEscape] at read
  iterate 8
    rcases rest_of_choice read with same | read
    · exact Or.inl same
  split at read
  · exact Or.inr read
  · cases read

theorem length_readEscape {text : List Char} {found : Char × List Char}
    (read : readEscape text = some found) : found.2.length < text.length := by
  cases text with
  | nil => cases read
  | cons char rest =>
      rw [List.length_cons, Nat.lt_succ_iff]
      rcases rest_readEscape read with same | unicode
      · rw [same]
      · exact length_readUnicode unicode

theorem length_readChars {fuel : Nat} {text : List Char} {found : List Char × List Char}
    (read : readChars fuel text = some found) : found.1.length + found.2.length < text.length := by
  induction fuel generalizing text found with
  | zero => cases read
  | succ fuel ih =>
      cases text with
      | nil => cases read
      | cons char rest =>
          rw [readChars] at read
          split at read
          · rw [← Option.some.inj read]
            simp
          · split at read
            · split at read
              · rename_i escaped after escape
                rcases Option.map_eq_some_iff.mp read with ⟨others, later, same⟩
                have shorter := length_readEscape escape
                have fewer := ih later
                rw [← same]
                simp only [List.length_cons] at shorter ⊢
                omega
              · cases read
            · split at read
              · cases read
              · rcases Option.map_eq_some_iff.mp read with ⟨others, later, same⟩
                have fewer := ih later
                rw [← same]
                simp only [List.length_cons]
                omega

/-- No text is the JSON text of itself as a string. -/
theorem parse_string_shorter {text : List Char} {value : String}
    (read : parse text = some (.string value)) : value.toList.length < text.length := by
  have suffix : (skipBlanks text).length ≤ text.length := (List.dropWhile_sublist _).length_le
  have front : Exists fun rest : List Char =>
      readValue (text.length + 1) (skipBlanks text) = some (.string value, rest) := by
    unfold parse at read
    split at read
    · rename_i found rest first
      split at read
      · rw [Option.some.inj read] at first
        exact ⟨rest, first⟩
      · cases read
    · cases read
  rcases front with ⟨rest, first⟩
  cases started : skipBlanks text with
  | nil =>
      rw [started] at first
      cases first
  | cons char body =>
      rw [started] at first suffix
      have quoted : Exists fun found : String × List Char =>
          readString (char :: body) = some found ∧ found.1 = value := by
        unfold readValue at first
        split at first
        · rcases Option.map_eq_some_iff.mp first with ⟨found, string, same⟩
          have parts := Prod.mk.inj same
          exact ⟨found, string, Json.string.inj parts.1⟩
        · -- Every other first character starts a value of another kind.
          repeat' split at first
          all_goals first
            | cases (Prod.mk.inj (Option.some.inj first)).1
            | rcases Option.map_eq_some_iff.mp first with ⟨found, _, same⟩
              cases (Prod.mk.inj same).1
      rcases quoted with ⟨found, string, rfl⟩
      rw [readString] at string
      split at string
      · rcases Option.map_eq_some_iff.mp string with ⟨chars, letters, same⟩
        have fewer := length_readChars letters
        rw [← same, String.toList_ofList]
        simp only [List.length_cons] at suffix
        omega
      · cases string

end JsonText
end WarehouseSync

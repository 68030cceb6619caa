import WarehouseSync.Library.DecimalText

namespace WarehouseSync
namespace PythonText

open DecimalText

/-!
# Python's texts: blanks, lower case and integers

What `str.strip`, `str.lower` and `int` of Python 3.12 do with a text, written
over the characters of Unicode 15 and not of ASCII alone, since a text that comes
out of a database or a request may hold any of them.  A program that reads its
own output back needs only one fact of each: an integer is read from the text
`str` gives it.  One that reads foreign texts needs the converse too, which
characters a text that reads as an integer can have.

Two things are left out.  `str.lower` writes a capital sigma at the end of a word
as a final sigma and is here always the other one, and `int` refuses more than
4300 digits.
-/

/-- `str.isspace` of one character. -/
def isSpace (char : Char) : Bool :=
  let code := char.toNat
  (9 ≤ code && code ≤ 13) || (28 ≤ code && code ≤ 32) || (0x2000 ≤ code && code ≤ 0x200A) ||
    [0x85, 0xA0, 0x1680, 0x2028, 0x2029, 0x202F, 0x205F, 0x3000].contains code

/-- A text without the blanks at its two ends, for whatever counts as a blank:
`str.strip` and `int` do not agree on it. -/
def stripOf (blank : Char -> Bool) (text : List Char) : List Char :=
  ((text.dropWhile blank).reverse.dropWhile blank).reverse

/-- `str.strip`. -/
def strip (text : List Char) : List Char :=
  stripOf isSpace text

/-- Runs of capitals beyond ASCII: the first and the last of a run, the distance
between two of them, and the small letter of the first. -/
def capitals : List (Nat × Nat × Nat × Nat) :=
  [(192, 214, 1, 224), (216, 222, 1, 248), (256, 302, 2, 257), (306, 310, 2, 307), (313, 327, 2, 314),
   (330, 374, 2, 331), (376, 376, 1, 255), (377, 381, 2, 378), (385, 385, 1, 595), (386, 388, 2, 387),
   (390, 390, 1, 596), (391, 391, 1, 392), (393, 394, 1, 598), (395, 395, 1, 396), (398, 398, 1, 477),
   (399, 399, 1, 601), (400, 400, 1, 603), (401, 401, 1, 402), (403, 403, 1, 608), (404, 404, 1, 611),
   (406, 406, 1, 617), (407, 407, 1, 616), (408, 408, 1, 409), (412, 412, 1, 623), (413, 413, 1, 626),
   (415, 415, 1, 629), (416, 420, 2, 417), (422, 422, 1, 640), (423, 423, 1, 424), (425, 425, 1, 643),
   (428, 428, 1, 429), (430, 430, 1, 648), (431, 431, 1, 432), (433, 434, 1, 650), (435, 437, 2, 436),
   (439, 439, 1, 658), (440, 440, 1, 441), (444, 444, 1, 445), (452, 452, 1, 454), (453, 453, 1, 454),
   (455, 455, 1, 457), (456, 456, 1, 457), (458, 458, 1, 460), (459, 475, 2, 460), (478, 494, 2, 479),
   (497, 497, 1, 499), (498, 500, 2, 499), (502, 502, 1, 405), (503, 503, 1, 447), (504, 542, 2, 505),
   (544, 544, 1, 414), (546, 562, 2, 547), (570, 570, 1, 11365), (571, 571, 1, 572), (573, 573, 1, 410),
   (574, 574, 1, 11366), (577, 577, 1, 578), (579, 579, 1, 384), (580, 580, 1, 649), (581, 581, 1, 652),
   (582, 590, 2, 583), (880, 882, 2, 881), (886, 886, 1, 887), (895, 895, 1, 1011), (902, 902, 1, 940),
   (904, 906, 1, 941), (908, 908, 1, 972), (910, 911, 1, 973), (913, 929, 1, 945), (931, 939, 1, 963),
   (975, 975, 1, 983), (984, 1006, 2, 985), (1012, 1012, 1, 952), (1015, 1015, 1, 1016), (1017, 1017, 1, 1010),
   (1018, 1018, 1, 1019), (1021, 1023, 1, 891), (1024, 1039, 1, 1104), (1040, 1071, 1, 1072),
   (1120, 1152, 2, 1121), (1162, 1214, 2, 1163), (1216, 1216, 1, 1231), (1217, 1229, 2, 1218),
   (1232, 1326, 2, 1233), (1329, 1366, 1, 1377), (4256, 4293, 1, 11520), (4295, 4295, 1, 11559),
   (4301, 4301, 1, 11565), (5024, 5103, 1, 43888), (5104, 5109, 1, 5112), (7312, 7354, 1, 4304),
   (7357, 7359, 1, 4349), (7680, 7828, 2, 7681), (7838, 7838, 1, 223), (7840, 7934, 2, 7841),
   (7944, 7951, 1, 7936), (7960, 7965, 1, 7952), (7976, 7983, 1, 7968), (7992, 7999, 1, 7984),
   (8008, 8013, 1, 8000), (8025, 8031, 2, 8017), (8040, 8047, 1, 8032), (8072, 8079, 1, 8064),
   (8088, 8095, 1, 8080), (8104, 8111, 1, 8096), (8120, 8121, 1, 8112), (8122, 8123, 1, 8048),
   (8124, 8124, 1, 8115), (8136, 8139, 1, 8050), (8140, 8140, 1, 8131), (8152, 8153, 1, 8144),
   (8154, 8155, 1, 8054), (8168, 8169, 1, 8160), (8170, 8171, 1, 8058), (8172, 8172, 1, 8165),
   (8184, 8185, 1, 8056), (8186, 8187, 1, 8060), (8188, 8188, 1, 8179), (8486, 8486, 1, 969),
   (8490, 8490, 1, 107), (8491, 8491, 1, 229), (8498, 8498, 1, 8526), (8544, 8559, 1, 8560),
   (8579, 8579, 1, 8580), (9398, 9423, 1, 9424), (11264, 11311, 1, 11312), (11360, 11360, 1, 11361),
   (11362, 11362, 1, 619), (11363, 11363, 1, 7549), (11364, 11364, 1, 637), (11367, 11371, 2, 11368),
   (11373, 11373, 1, 593), (11374, 11374, 1, 625), (11375, 11375, 1, 592), (11376, 11376, 1, 594),
   (11378, 11378, 1, 11379), (11381, 11381, 1, 11382), (11390, 11391, 1, 575), (11392, 11490, 2, 11393),
   (11499, 11501, 2, 11500), (11506, 11506, 1, 11507), (42560, 42604, 2, 42561), (42624, 42650, 2, 42625),
   (42786, 42798, 2, 42787), (42802, 42862, 2, 42803), (42873, 42875, 2, 42874), (42877, 42877, 1, 7545),
   (42878, 42886, 2, 42879), (42891, 42891, 1, 42892), (42893, 42893, 1, 613), (42896, 42898, 2, 42897),
   (42902, 42920, 2, 42903), (42922, 42922, 1, 614), (42923, 42923, 1, 604), (42924, 42924, 1, 609),
   (42925, 42925, 1, 620), (42926, 42926, 1, 618), (42928, 42928, 1, 670), (42929, 42929, 1, 647),
   (42930, 42930, 1, 669), (42931, 42931, 1, 43859), (42932, 42946, 2, 42933), (42948, 42948, 1, 42900),
   (42949, 42949, 1, 642), (42950, 42950, 1, 7566), (42951, 42953, 2, 42952), (42960, 42960, 1, 42961),
   (42966, 42968, 2, 42967), (42997, 42997, 1, 42998), (65313, 65338, 1, 65345), (66560, 66599, 1, 66600),
   (66736, 66771, 1, 66776), (66928, 66938, 1, 66967), (66940, 66954, 1, 66979), (66956, 66962, 1, 66995),
   (66964, 66965, 1, 67003), (68736, 68786, 1, 68800), (71840, 71871, 1, 71872), (93760, 93791, 1, 93792),
   (125184, 125217, 1, 125218)]

/-- The letter itself where it is no capital.  The capital I with a dot is the one
letter whose small form takes two characters. -/
def lowerChar (char : Char) : List Char :=
  if char.toNat < 128 then [char.toLower]
  else if char.toNat = 0x130 then ['i', Char.ofNat 0x307]
  else
    match capitals.find? (fun (first, last, distance, _) =>
      first ≤ char.toNat && char.toNat ≤ last && (char.toNat - first) % distance == 0) with
    | some (first, _, _, small) => [Char.ofNat (small + (char.toNat - first))]
    | none => [char]

/-- `str.lower`. -/
def lower (text : String) : String :=
  String.ofList (text.toList.flatMap lowerChar)

/-- The zeros of the scripts that have decimal digits.  The other nine digits
follow each of them. -/
def zeros : List Nat :=
  [0x660, 0x6F0, 0x7C0, 0x966, 0x9E6, 0xA66, 0xAE6, 0xB66, 0xBE6, 0xC66, 0xCE6, 0xD66, 0xDE6, 0xE50,
    0xED0, 0xF20, 0x1040, 0x1090, 0x17E0, 0x1810, 0x1946, 0x19D0, 0x1A80, 0x1A90, 0x1B50, 0x1BB0,
    0x1C40, 0x1C50, 0xA620, 0xA8D0, 0xA900, 0xA9D0, 0xA9F0, 0xAA50, 0xABF0, 0xFF10, 0x104A0, 0x10D30,
    0x11066, 0x110F0, 0x11136, 0x111D0, 0x112F0, 0x11450, 0x114D0, 0x11650, 0x116C0, 0x11730, 0x118E0,
    0x11950, 0x11C50, 0x11D50, 0x11DA0, 0x11F50, 0x16A60, 0x16AC0, 0x16B50, 0x1D7CE, 0x1D7D8, 0x1D7E2,
    0x1D7EC, 0x1D7F6, 0x1E140, 0x1E2F0, 0x1E4F0, 0x1E950, 0x1FBF0]

/-- `int` first writes the blanks and the digits of every script in ASCII, so a
literal may be in any of them. -/
def toAscii (char : Char) : Char :=
  if char.toNat < 127 then char
  else if isSpace char then ' '
  else
    match zeros.find? (fun nought => nought ≤ char.toNat && char.toNat < nought + 10) with
    | some nought => Nat.digitChar (char.toNat - nought)
    | none => char

/-- The blanks `int` skips.  The separators 28 to 31 are not among them, although
`str.strip` takes them away. -/
def isIntSpace (char : Char) : Bool :=
  (9 ≤ char.toNat && char.toNat ≤ 13) || char.toNat == 32

/-- Single underscores may stand between the digits of a literal. -/
def withoutUnderscores : List Char -> List Char
  | first :: '_' :: second :: rest =>
      if first.isDigit && second.isDigit then first :: withoutUnderscores (second :: rest)
      else first :: '_' :: second :: rest
  | first :: rest => first :: withoutUnderscores rest
  | [] => []

/-- `int(text)`: blanks around the literal are skipped, and a sign and single
underscores are allowed. -/
def readInt (text : List Char) : Option Int :=
  DecimalText.readInt (withoutUnderscores (stripOf isIntSpace (text.map toAscii)))

/-! ## Reading an integer back -/

theorem stripOf_of_solid {blank : Char -> Bool} {text : List Char}
    (solid : forall char, char ∈ text -> blank char = false) : stripOf blank text = text := by
  have kept : forall chars : List Char, (forall char, char ∈ chars -> blank char = false) ->
      chars.dropWhile blank = chars := by
    intro chars solid
    cases chars with
    | nil => rfl
    | cons char chars =>
        apply List.dropWhile_cons_of_neg
        rw [solid char List.mem_cons_self]
        exact Bool.false_ne_true
  unfold stripOf
  rw [kept text solid, kept _ (fun char member => solid char (List.mem_reverse.mp member)), List.reverse_reverse]

theorem withoutUnderscores_of_plain {text : List Char} (plain : '_' ∉ text) :
    withoutUnderscores text = text := by
  fun_induction withoutUnderscores text with
  | case1 first second rest digits ih => exact absurd (List.mem_cons_of_mem _ List.mem_cons_self) plain
  | case2 first second rest noDigits => rfl
  | case3 first rest other ih =>
      rw [ih (fun member => plain (List.mem_cons_of_mem _ member))]
  | case4 => rfl

/-- The characters `str` writes an integer with. -/
theorem intText_char {value : Int} {char : Char} (member : char ∈ intText value) :
    char.isDigit = true ∨ char = '-' := by
  have digits : forall {value : Nat}, char ∈ Nat.toDigits 10 value -> char.isDigit = true :=
    fun member => Nat.isDigit_of_mem_toDigits (by decide) (by decide) member
  cases value with
  | ofNat value => exact Or.inl (digits member)
  | negSucc value =>
      rcases List.mem_cons.mp member with sign | digit
      · exact Or.inr sign
      · exact Or.inl (digits digit)

/-- `str` writes integers in ASCII and without blanks. -/
theorem intText_plain {value : Int} {char : Char} (member : char ∈ intText value) :
    toAscii char = char ∧ isIntSpace char = false ∧ char ≠ '_' := by
  rcases intText_char member with digit | rfl
  · have range := toNat_of_isDigit digit
    refine ⟨?_, ?_, ?_⟩
    · rw [toAscii, if_pos (by omega)]
    · simp only [isIntSpace, Bool.or_eq_false_iff, Bool.and_eq_false_iff, decide_eq_false_iff_not,
        beq_eq_false_iff_ne]
      omega
    · rintro rfl
      exact absurd digit (by decide)
  · decide

theorem readInt_intText (value : Int) : readInt (intText value) = some value := by
  have ascii : (intText value).map toAscii = intText value :=
    (List.map_congr_left (fun char member => (intText_plain member).1)).trans (List.map_id _)
  rw [readInt, ascii, stripOf_of_solid (fun char member => (intText_plain member).2.1),
    withoutUnderscores_of_plain (fun member => (intText_plain member).2.2 rfl), DecimalText.readInt_intText]

/-- The characters of the ASCII forms of integers. -/
def isNumeric (char : Char) : Bool :=
  char.isDigit || isIntSpace char || char == '_' || char == '-' || char == '+'

theorem mem_readNat {chars : List Char} {number : Nat} {char : Char} (read : readNat chars = some number)
    (member : char ∈ chars) : isNumeric char = true := by
  unfold readNat at read
  split at read
  · rename_i digits
    simp [isNumeric, List.all_eq_true.mp digits.2 char member]
  · cases read

theorem mem_of_readChar {sign char : Char} {chars rest : List Char} (read : readChar sign chars = some rest)
    (member : char ∈ chars) : char = sign ∨ char ∈ rest := by
  cases chars with
  | nil => cases read
  | cons first chars =>
      by_cases same : first = sign
      · rw [readChar, if_pos same] at read
        cases read
        rcases List.mem_cons.mp member with front | behind
        · exact Or.inl (front.trans same)
        · exact Or.inr behind
      · rw [readChar, if_neg same] at read
        cases read

theorem mem_asciiInt {chars : List Char} {value : Int} {char : Char}
    (read : DecimalText.readInt chars = some value) (member : char ∈ chars) : isNumeric char = true := by
  unfold DecimalText.readInt at read
  split at read
  · rename_i rest _ front
    rcases Option.map_eq_some_iff.mp read with ⟨number, digits, _⟩
    rcases mem_of_readChar front member with rfl | behind
    · decide
    · exact mem_readNat digits behind
  · rename_i rest _ front
    rcases Option.map_eq_some_iff.mp read with ⟨number, digits, _⟩
    rcases mem_of_readChar front member with rfl | behind
    · decide
    · exact mem_readNat digits behind
  · rcases Option.map_eq_some_iff.mp read with ⟨number, digits, _⟩
    exact mem_readNat digits member

theorem mem_withoutUnderscores {chars : List Char} {char : Char} (member : char ∈ chars) :
    char = '_' ∨ char ∈ withoutUnderscores chars := by
  fun_induction withoutUnderscores chars with
  | case1 first second rest digits ih =>
      rcases List.mem_cons.mp member with same | later
      · exact Or.inr (same ▸ List.mem_cons_self)
      · rcases List.mem_cons.mp later with same | later
        · exact Or.inl same
        · exact (ih later).imp_right (List.mem_cons_of_mem _)
  | case2 first second rest noDigits => exact Or.inr member
  | case3 first rest other ih =>
      rcases List.mem_cons.mp member with same | later
      · exact Or.inr (same ▸ List.mem_cons_self)
      · exact (ih later).imp_right (List.mem_cons_of_mem _)
  | case4 => cases member

theorem mem_stripOf {blank : Char -> Bool} {text : List Char} {char : Char} (member : char ∈ text) :
    blank char = true ∨ char ∈ stripOf blank text := by
  have kept : forall {chars : List Char}, char ∈ chars ->
      blank char = true ∨ char ∈ chars.dropWhile blank := by
    intro chars listed
    rw [<- @List.takeWhile_append_dropWhile _ blank chars] at listed
    rcases List.mem_append.mp listed with front | back
    · exact Or.inl (List.all_eq_true.mp List.all_takeWhile _ front)
    · exact Or.inr back
  rcases kept member with skipped | there
  · exact Or.inl skipped
  · rcases kept (List.mem_reverse.mpr there) with skipped | there
    · exact Or.inl skipped
    · exact Or.inr (List.mem_reverse.mpr there)

/-- Whatever else a text holds, it does not read as an integer. -/
theorem numeric_of_readInt {text : List Char} {value : Int} {char : Char} (read : readInt text = some value)
    (member : char ∈ text) : isNumeric (toAscii char) = true := by
  rcases @mem_stripOf isIntSpace (text.map toAscii) (toAscii char)
      (List.mem_map_of_mem member) with skipped | stripped
  · simp [isNumeric, skipped]
  · rcases mem_withoutUnderscores stripped with underscore | kept
    · rw [underscore]
      decide
    · exact mem_asciiInt read kept

end PythonText
end WarehouseSync

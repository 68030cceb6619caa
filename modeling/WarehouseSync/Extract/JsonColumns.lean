import WarehouseSync.Extract.Coerce
import WarehouseSync.Library.Dictionaries

namespace WarehouseSync
namespace Coerce

open DataTypes Dictionaries JsonText

/-!
# JSON columns

psycopg turns a stored JSON value into Python objects before the column is
coerced to text.  A dictionary or list is written as JSON again.  A scalar is
not recognised as JSON any more: a string is taken for the text itself, a
boolean is written as Python writes it, and `null` is the `None` that stands for
SQL NULL.  An integer is written the same way by both.
-/

mutual

/-- What psycopg decodes a JSON value to: the objects of Python that `json.loads`
makes.  An object of JSON becomes a dictionary and keeps the last member of a name.
-/
def decode : Json -> PyValue
  | .null => .none
  | .bool value => .bool value
  | .number value => .int value
  | .string text => .str text
  | .array items => .list (decodeItems items)
  | .object members => .dict (dictOf (decodeMembers members))

def decodeItems : List Json -> List PyValue
  | [] => []
  | item :: items => decode item :: decodeItems items

def decodeMembers : List (String × Json) -> List (String × PyValue)
  | [] => []
  | (name, value) :: members => (name, decode value) :: decodeMembers members

end

mutual

/-- No object of the value has two members of one name.  `json` columns keep such
texts, and decoding loses all but the last member. -/
def UniqueNames : Json -> Prop
  | .array items => UniqueItems items
  | .object members => (members.map Prod.fst).Nodup ∧ UniqueMembers members
  | _ => True

def UniqueItems : List Json -> Prop
  | [] => True
  | item :: items => UniqueNames item ∧ UniqueItems items

def UniqueMembers : List (String × Json) -> Prop
  | [] => True
  | (_, value) :: members => UniqueNames value ∧ UniqueMembers members

end

theorem names_decodeMembers (members : List (String × Json)) :
    (decodeMembers members).map Prod.fst = members.map Prod.fst := by
  induction members with
  | nil => rfl
  | cons member members ih => rw [decodeMembers, List.map_cons, List.map_cons, ih]

theorem names_membersToJson (members : List (String × PyValue)) :
    (membersToJson members).map Prod.fst = members.map Prod.fst := by
  induction members with
  | nil => rfl
  | cons member members ih => rw [membersToJson, List.map_cons, List.map_cons, ih]

mutual

/-- Without repeated names, decoding loses nothing. -/
theorem toJson_decode (value : Json) (unique : UniqueNames value) : (decode value).toJson = value := by
  match value with
  | .null => rfl
  | .bool _ => rfl
  | .number _ => rfl
  | .string _ => rfl
  | .array items =>
      rw [UniqueNames] at unique
      rw [decode, PyValue.toJson, itemsToJson_decodeItems items unique]
  | .object members =>
      rw [UniqueNames] at unique
      have dictionary : dictOf (decodeMembers members) = decodeMembers members :=
        dictOf_eq_self ((names_decodeMembers members).symm ▸ unique.1)
      rw [decode, PyValue.toJson, dictionary, membersToJson_decodeMembers members unique.2]

theorem itemsToJson_decodeItems (items : List Json) (unique : UniqueItems items) :
    itemsToJson (decodeItems items) = items := by
  match items with
  | [] => rfl
  | item :: items =>
      rw [UniqueItems] at unique
      rw [decodeItems, itemsToJson, toJson_decode item unique.1, itemsToJson_decodeItems items unique.2]

theorem membersToJson_decodeMembers (members : List (String × Json)) (unique : UniqueMembers members) :
    membersToJson (decodeMembers members) = members := by
  match members with
  | [] => rfl
  | (name, value) :: members =>
      rw [UniqueMembers] at unique
      rw [decodeMembers, membersToJson, toJson_decode value unique.1,
        membersToJson_decodeMembers members unique.2]

end

theorem uniqueMembers_membersToJson {members : List (String × PyValue)}
    (unique : forall entry, entry ∈ members -> UniqueNames entry.2.toJson) :
    UniqueMembers (membersToJson members) := by
  induction members with
  | nil => trivial
  | cons member members ih =>
      cases member with
      | mk name value =>
          rw [membersToJson, UniqueMembers]
          exact ⟨unique (name, value) List.mem_cons_self,
            ih (fun entry later => unique entry (List.mem_cons_of_mem _ later))⟩

mutual

/-- A dictionary has no repeated names, so what is decoded has none. -/
theorem uniqueNames_decode (value : Json) : UniqueNames (decode value).toJson := by
  match value with
  | .null => trivial
  | .bool _ => trivial
  | .number _ => trivial
  | .string _ => trivial
  | .array items =>
      rw [decode, PyValue.toJson, UniqueNames]
      exact uniqueItems_decodeItems items
  | .object members =>
      rw [decode, PyValue.toJson, UniqueNames, names_membersToJson]
      refine ⟨nodup_dictOf _, uniqueMembers_membersToJson ?_⟩
      intro entry member
      exact uniqueNames_of_mem_decodeMembers members entry (mem_dictOf member)

theorem uniqueItems_decodeItems (items : List Json) : UniqueItems (itemsToJson (decodeItems items)) := by
  match items with
  | [] => trivial
  | item :: items =>
      rw [decodeItems, itemsToJson, UniqueItems]
      exact ⟨uniqueNames_decode item, uniqueItems_decodeItems items⟩

theorem uniqueNames_of_mem_decodeMembers (members : List (String × Json)) (entry : String × PyValue)
    (member : entry ∈ decodeMembers members) : UniqueNames entry.2.toJson := by
  match members with
  | [] => cases member
  | (name, value) :: members =>
      rw [decodeMembers] at member
      cases List.mem_cons.mp member with
      | inl here =>
          rw [here]
          exact uniqueNames_decode value
      | inr rest => exact uniqueNames_of_mem_decodeMembers members entry rest

end

/-! ## What reaches the lake -/

/-- What psycopg hands over for a stored value; SQL NULL is no JSON value, and both
NULLs come out as None. -/
def received : Option Json -> PyValue
  | none => .none
  | some value => decode value

/-- The values whose top level is still recognised as JSON, or written like it.  A
string loses its quotes, and a truth value is written as Python writes it. -/
def WrittenAsJson : Json -> Prop
  | .array _ => True
  | .object _ => True
  | .number _ => True
  | _ => False

/-- The lake holds a text of the stored value, and NULL for SQL NULL alone.
Equality is of the values that the texts are read to, since the spelling is not
kept. -/
def RoundTrips (stored : Option Json) (lake : PyValue) : Prop :=
  (lake = .none ↔ stored = none) ∧
  forall value, stored = some value ->
    Exists fun text : String => lake = .str text ∧ parse text.toList = some value

/-- A container is written as what it was decoded to. -/
theorem roundTrips_dumped (value : Json) {lake : PyValue}
    (written : lake = .str (jsonDumps (decode value))) :
    RoundTrips (some value) lake ↔ UniqueNames value := by
  constructor
  · rintro ⟨_, reads⟩
    rcases reads value rfl with ⟨text, same, read⟩
    have dumped : text = jsonDumps (decode value) := PyValue.str.inj (same.symm.trans written)
    rw [dumped, jsonDumps, String.toList_ofList, parse_print] at read
    rw [← Option.some.inj read]
    exact uniqueNames_decode value
  · intro unique
    constructor
    · rw [written]
      constructor
      · intro impossible
        cases impossible
      · intro impossible
        cases impossible
    · intro other same
      refine ⟨jsonDumps (decode value), written, ?_⟩
      rw [jsonDumps, String.toList_ofList, parse_print, toJson_decode value unique]
      exact same

theorem not_roundTrips_of_text {value : Json} {text : String} (unread : parse text.toList ≠ some value) :
    ¬ RoundTrips (some value) (.str text) := by
  rintro ⟨_, reads⟩
  rcases reads value rfl with ⟨written, same, read⟩
  rw [← PyValue.str.inj same] at read
  exact unread read

/-- A value that is written as JSON round-trips when its names are unique. -/
theorem roundTrips_written {value : Json} (asJson : WrittenAsJson value)
    (written : coerceText (decode value) = .str (jsonDumps (decode value))) :
    RoundTrips (some value) (coerceText (decode value)) ↔ WrittenAsJson value ∧ UniqueNames value := by
  rw [roundTrips_dumped value written]
  exact (and_iff_right asJson).symm

/-- Any other value does not. -/
theorem roundTrips_lost {value : Json} (other : ¬ WrittenAsJson value)
    (lost : ¬ RoundTrips (some value) (coerceText (decode value))) :
    RoundTrips (some value) (coerceText (decode value)) ↔ WrittenAsJson value ∧ UniqueNames value := by
  constructor
  · intro trips
    exact absurd trips lost
  · intro both
    exact absurd both.1 other

theorem roundTrips_value (value : Json) :
    RoundTrips (some value) (coerceText (decode value)) ↔ WrittenAsJson value ∧ UniqueNames value := by
  cases value with
  | null =>
      apply roundTrips_lost
      · intro impossible
        exact impossible
      · intro trips
        cases trips.1.mp rfl
  | bool value =>
      apply roundTrips_lost
      · intro impossible
        exact impossible
      · apply not_roundTrips_of_text
        have unread : parse (plainText (decode (.bool value))).toList = none := by
          cases value with
          | true => rfl
          | false => rfl
        rw [unread]
        intro impossible
        cases impossible
  | number value =>
      apply roundTrips_written
      · trivial
      · rw [jsonDumps, decode, PyValue.toJson, print]
        rfl
  | string text =>
      apply roundTrips_lost
      · intro impossible
        exact impossible
      · apply not_roundTrips_of_text
        intro read
        exact absurd (parse_string_shorter read) (Nat.lt_irrefl _)
  | array items =>
      apply roundTrips_written
      · trivial
      · rw [decode, coerceText]
  | object members =>
      apply roundTrips_written
      · trivial
      · rw [decode, coerceText]

/-- One stored value: it must be an object, an array or an integer, and its
objects must not repeat a name. -/
theorem roundTrips_iff (stored : Option Json) :
    RoundTrips stored (coerceText (received stored)) ↔
      forall value, stored = some value -> WrittenAsJson value ∧ UniqueNames value := by
  cases stored with
  | none =>
      constructor
      · intro _ value impossible
        cases impossible
      · intro _
        refine ⟨⟨fun _ => rfl, fun _ => rfl⟩, ?_⟩
        intro value impossible
        cases impossible
  | some value =>
      rw [received, roundTrips_value]
      constructor
      · intro holds other same
        cases same
        exact holds
      · intro all
        exact all value rfl

/-- Both JSON types are text in the lake.  A column of them round-trips exactly
when every stored value is an object, an array or an integer without repeated
names. -/
theorem json_column_iff (col : List (Option Json)) :
    pgToArrowType "json" = some .largeString ∧ pgToArrowType "jsonb" = some .largeString ∧
    (List.Forall₂ RoundTrips col (coerceForArrow (col.map received) .largeString) ↔
      forall value, some value ∈ col -> WrittenAsJson value ∧ UniqueNames value) := by
  refine ⟨?_, ?_, ?_⟩
  · rw [pgToArrowType]
    decide
  · rw [pgToArrowType]
    decide
  · rw [coerceForArrow, List.map_map]
    simp only [List.forall₂_map_right_iff, List.forall₂_same]
    constructor
    · intro trips value member
      exact (roundTrips_iff (some value)).mp (trips (some value) member) value rfl
    · intro holds stored member
      apply (roundTrips_iff stored).mpr
      rintro value rfl
      exact holds value member

/-- The JSON string `"5"` becomes the text `5`, which is the number. -/
theorem json_string_becomes_a_number :
    parse "5".toList = some (.number 5) ∧
    ¬ List.Forall₂ RoundTrips [some (.string "5")]
      (coerceForArrow ([some (.string "5")].map received) .largeString) := by
  refine ⟨rfl, ?_⟩
  intro trips
  rw [coerceForArrow, List.map_singleton, List.map_singleton, List.forall₂_cons] at trips
  exact ((roundTrips_iff (some (.string "5"))).mp trips.1 _ rfl).1

end Coerce
end WarehouseSync

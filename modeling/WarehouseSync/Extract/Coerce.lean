import WarehouseSync.Extract.DataTypes
import WarehouseSync.Library.Decimals
import WarehouseSync.Library.JsonText

namespace WarehouseSync
namespace Coerce

open DataTypes Decimals JsonText

/-!
# Fitting decoded values to their column (`extract/copy_worker.py`)

psycopg decodes a column to Python objects.  Those of a text column become
strings again, and those of a numeric column are rounded to the scale of the
Arrow type.  The rounding uses the decimal context of the process, which allows
28 digits whatever the precision of the column is, so a value is lost exactly
when it needs more digits than that.
-/

/-- The objects psycopg decodes to.  An object of any other class is known by its
text, as that is all that becomes of it in a text column. -/
inductive PyValue where
  | none
  | bool (value : Bool)
  | int (value : Int)
  | str (text : String)
  | list (items : List PyValue)
  | dict (members : List (String × PyValue))
  | decimal (value : Number)
  | object (text : String)

mutual

/-- What `json.dumps(value, default=str)` writes.  Values that JSON has no form for
become strings, which is how a number with digits comes out in quotes. -/
def PyValue.toJson : PyValue -> Json
  | .none => .null
  | .bool value => .bool value
  | .int value => .number value
  | .str text => .string text
  | .list items => .array (itemsToJson items)
  | .dict members => .object (membersToJson members)
  | .decimal value => .string (String.ofList value.text)
  | .object text => .string text

def itemsToJson : List PyValue -> List Json
  | [] => []
  | item :: items => item.toJson :: itemsToJson items

def membersToJson : List (String × PyValue) -> List (String × Json)
  | [] => []
  | (name, value) :: members => (name, value.toJson) :: membersToJson members

end

/-- `json.dumps(value, default=str)`. -/
def jsonDumps (value : PyValue) : String :=
  String.ofList (print value.toJson)

/-- `str(value)` of a value that is neither NULL nor text nor a container. -/
def plainText : PyValue -> String
  | .bool value => if value = true then "True" else "False"
  | .int value => String.ofList (printInt value)
  | .decimal value => String.ofList value.text
  | .object text => text
  | _ => ""

/-- A value of a text column.  Containers are JSON and everything else is `str`, so
that a text is the only value that comes out unchanged. -/
def coerceText : PyValue -> PyValue
  | .none => .none
  | .str text => .str text
  | .list items => .str (jsonDumps (.list items))
  | .dict members => .str (jsonDumps (.dict members))
  | value => .str (plainText value)

/-- `Decimal(1).scaleb(-scale)`, the unit of the last place that the column has. -/
def quantum (scale : Int) : Decimal :=
  Decimal.scaleb { negative := false, coefficient := 1, exponent := 0 } (-scale)

/-- A value of a numeric column; an invalid operation makes it NULL.  The default
context has 28 digits, and a column may have up to 38: that is where the two limits
part. -/
def coerceDecimal (scale : Int) : PyValue -> PyValue
  | .decimal value =>
      match quantize defaultContext value (quantum scale).exponent with
      | some rounded => .decimal rounded
      | none => .none
  | value => value

/-- `_coerce_for_arrow`.  Only text and numeric columns are touched, and Arrow
converts the others itself. -/
def coerceForArrow (col : List PyValue) (arrowType : DataType) : List PyValue :=
  match arrowType with
  | .string | .largeString => col.map coerceText
  | .decimal128 _ scale => col.map (coerceDecimal scale)
  | _ => col

/-! ## Numeric columns -/

/-- What a numeric column of the given type is to hold for a value: the value
rounded half up to the scale when the precision admits it, and NULL
otherwise. -/
def Survives (precision : Nat) (scale : Int) (value : Decimal) (stored : PyValue) : Prop :=
  (|roundHalfUp scale value.toRat| * 10 ^ scale < 10 ^ precision ->
    Exists fun rounded : Decimal =>
      stored = .decimal (.finite rounded) ∧ rounded.toRat = roundHalfUp scale value.toRat) ∧
  (stored = .none ↔ 10 ^ precision ≤ |roundHalfUp scale value.toRat| * 10 ^ scale)

/-- The value that comes out is the rounded one, and it is lost exactly when it
needs more than 28 digits. -/
theorem coerceDecimal_finite {scale : Int} (lower : 0 ≤ scale) (upper : scale ≤ 38) (value : Decimal) :
    coerceDecimal scale (.decimal (.finite value)) =
      if unitsHalfUp scale value.toRat < 10 ^ 28 then
        .decimal (.finite (rescale value (-scale)))
      else .none := by
  have exponent : (quantum scale).exponent = -scale := Int.zero_add _
  have tiny : defaultContext.tinyExponent ≤ -scale := by
    have bound : defaultContext.tinyExponent = -1000026 := rfl
    omega
  have small : -scale + defaultContext.precision ≤ defaultContext.maxExponent + 1 := by
    have precision : defaultContext.precision = 28 := rfl
    have bound : defaultContext.maxExponent = 999999 := rfl
    omega
  have positive : 0 < defaultContext.precision := by decide
  rw [coerceDecimal, exponent, quantize, quantizeFinite_eq positive tiny small, coefficient_rescale]
  show _ = if unitsHalfUp scale value.toRat < 10 ^ defaultContext.precision then _ else _
  by_cases fits : unitsHalfUp scale value.toRat < 10 ^ defaultContext.precision
  · rw [if_pos fits, if_pos fits]
    rfl
  · rw [if_neg fits, if_neg fits]
    rfl

/-- A value survives unless its number of digits lies between the precision of
the type and the 28 digits of the context. -/
theorem survives_iff {precision : Nat} {scale : Int} (lower : 0 ≤ scale) (upper : scale ≤ 38)
    (value : Decimal) :
    Survives precision scale value (coerceDecimal scale (.decimal (.finite value))) ↔
      ¬ (10 ^ min precision 28 ≤ unitsHalfUp scale value.toRat ∧
        unitsHalfUp scale value.toRat < 10 ^ max precision 28) := by
  have units : |roundHalfUp scale value.toRat| * 10 ^ scale = unitsHalfUp scale value.toRat :=
    abs_roundHalfUp scale value.toRat
  have below : |roundHalfUp scale value.toRat| * 10 ^ scale < 10 ^ precision ↔
      unitsHalfUp scale value.toRat < 10 ^ precision := by
    rw [units]
    exact_mod_cast Iff.rfl
  have above : 10 ^ precision ≤ |roundHalfUp scale value.toRat| * 10 ^ scale ↔
      10 ^ precision ≤ unitsHalfUp scale value.toRat := by
    rw [units]
    exact_mod_cast Iff.rfl
  have powers : Monotone (fun count : Nat => 10 ^ count) :=
    fun _ _ le => Nat.pow_le_pow_right (by decide) le
  have least : 10 ^ min precision 28 = min (10 ^ precision) (10 ^ 28) := powers.map_min
  have greatest : 10 ^ max precision 28 = max (10 ^ precision) (10 ^ 28) := powers.map_max
  rw [Survives, below, above, least, greatest, min_le_iff, lt_max_iff, coerceDecimal_finite lower upper]
  by_cases short : unitsHalfUp scale value.toRat < 10 ^ 28
  · have rounded : (rescale value (-scale)).toRat = roundHalfUp scale value.toRat := toRat_rescale value scale
    rw [if_pos short]
    constructor
    · rintro ⟨_, lost⟩ ⟨large | large, _⟩
      · exact absurd (lost.mpr large) (by simp)
      · omega
    · intro outside
      have fits : unitsHalfUp scale value.toRat < 10 ^ precision := by
        by_contra large
        exact outside ⟨Or.inl (Nat.le_of_not_lt large), Or.inr short⟩
      refine ⟨fun _ => ⟨rescale value (-scale), rfl, rounded⟩, ?_⟩
      constructor
      · intro impossible
        cases impossible
      · intro large
        omega
  · rw [if_neg short]
    constructor
    · rintro ⟨kept, _⟩ ⟨_, fits | fits⟩
      · rcases kept fits with ⟨rounded, impossible, _⟩
        cases impossible
      · exact short fits
    · intro outside
      have large : 10 ^ precision ≤ unitsHalfUp scale value.toRat := by
        by_contra fits
        exact outside ⟨Or.inr (Nat.le_of_not_lt short), Or.inl (Nat.lt_of_not_le fits)⟩
      refine ⟨fun fits => absurd fits (Nat.not_lt.mpr large), ?_⟩
      constructor
      · intro _
        exact large
      · intro _
        rfl

/-- The values of a column come out as they should exactly when none of them has
a number of digits between the precision of the type and 28. -/
theorem numeric_column_iff {precision : Nat} {scale : Int} (admitted : precision ≤ 38)
    (fractional : 0 ≤ scale) (within : scale ≤ precision) (col : List Decimal) :
    List.Forall₂ (Survives precision scale) col
        (coerceForArrow (col.map (fun value => .decimal (.finite value))) (.decimal128 precision scale)) ↔
      forall value, value ∈ col ->
        ¬ (10 ^ min precision 28 ≤ unitsHalfUp scale value.toRat ∧
          unitsHalfUp scale value.toRat < 10 ^ max precision 28) := by
  rw [coerceForArrow, List.map_map]
  simp only [List.forall₂_map_right_iff, List.forall₂_same]
  constructor
  · intro survive value member
    exact (survives_iff fractional (by omega) value).mp (survive value member)
  · intro outside value member
    exact (survives_iff fractional (by omega) value).mpr (outside value member)

/-- An amount in a `numeric(10,2)` column. -/
theorem amount_column_survives :
    List.Forall₂ (Survives 10 2) [{ negative := true, coefficient := 12345, exponent := -3 }]
      (coerceForArrow [.decimal (.finite { negative := true, coefficient := 12345, exponent := -3 })]
        (.decimal128 10 2)) := by
  apply (@numeric_column_iff 10 2 (by decide) (by decide) (by decide)
    [{ negative := true, coefficient := 12345, exponent := -3 }]).mpr
  intro value member between
  rw [List.mem_singleton.mp member, ← coefficient_rescale] at between
  exact absurd between.1 (by decide)

/-- Ten to the nineteenth in an unconstrained `numeric` column, of which the type
`decimal128(38, 9)` can hold 29 digits before the point, is lost. -/
theorem large_numeric_is_lost :
    pgToArrowType "numeric" = some (.decimal128 38 9) ∧
    ¬ List.Forall₂ (Survives 38 9) [{ negative := false, coefficient := 1, exponent := 19 }]
      (coerceForArrow [.decimal (.finite { negative := false, coefficient := 1, exponent := 19 })]
        (.decimal128 38 9)) := by
  have mapped : pgToArrowType "numeric" = some (.decimal128 38 9) := by
    rw [pgToArrowType]
    decide
  refine ⟨mapped, ?_⟩
  intro survive
  rw [coerceForArrow, List.map_singleton, List.forall₂_cons] at survive
  apply (survives_iff (by decide) (by decide) _).mp survive.1
  rw [← coefficient_rescale]
  decide

end Coerce
end WarehouseSync

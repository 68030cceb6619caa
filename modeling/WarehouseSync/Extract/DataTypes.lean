import WarehouseSync.Extract.Schema
import WarehouseSync.Library.PythonText

namespace WarehouseSync
namespace DataTypes

open PythonText (readInt strip)
open Schema

/-!
# Column types with their parameters (`extract/schema.py`)

The full mappings from PostgreSQL to Arrow and from Arrow to Iceberg.  Reading a
precision or building a type can raise; such a column has no type here.
-/

/-- The Arrow types the mapping produces.  A timestamp keeps its zone and a decimal
its digits, since both schemas and the coercion of values depend on them. -/
inductive DataType where
  | int16
  | int32
  | int64
  | bool
  | float32
  | float64
  | string
  | largeString
  | largeBinary
  | date32
  | timestamp (zone : Option String)
  | decimal128 (precision scale : Int)
  | largeList (item : DataType)
deriving DecidableEq, Repr

/-- The Iceberg types the mapping produces.  There is none for a list:
`_arrow_to_iceberg_type` has no case for one. -/
inductive IcebergType where
  | integer
  | long
  | boolean
  | float
  | double
  | string
  | binary
  | date
  | timestamp
  | timestamptz
  | decimal (precision scale : Int)
  | uuid
deriving DecidableEq, Repr

/-- A column as introspection describes it to the two schemas.  The ordinal is left
out because the columns come in its order. -/
structure SourceColumn extends Column where
  nullable : Bool
deriving DecidableEq, Repr

structure ArrowField where
  name : String
  dataType : DataType
  nullable : Bool
deriving DecidableEq, Repr

structure NestedField where
  fieldId : Nat
  name : String
  fieldType : IcebergType
  required : Bool
deriving DecidableEq, Repr

/-- What stands between the first opening and the first closing bracket. -/
def insideBrackets (base : List Char) : Option (List Char) :=
  match base.findIdx? (fun char => char == '('), base.findIdx? (fun char => char == ')') with
  | some opening, some closing => some ((base.take closing).drop (opening + 1))
  | _, _ => none

/-- The precision and the scale of `numeric(p,s)`.  Both are read by `int`, so that
blanks around a number do no harm, and a number that is none raises. -/
def modifiers (base : List Char) : Option (Int × Int) := do
  let inside ← insideBrackets base
  match ← (inside.splitOn ',').mapM (fun part => readInt (strip part)) with
  | [] => none
  | [precision] => some (precision, 0)
  | precision :: scale :: _ => some (precision, scale)

/-- `pa.decimal128` checks its precision; the scale is a 32-bit integer.  PostgreSQL
admits more digits than Arrow has, so that this can fail on a type that exists. -/
def decimal128 (precision scale : Int) : Option DataType :=
  if 1 ≤ precision ∧ precision ≤ 38 ∧ -2147483648 ≤ scale ∧ scale ≤ 2147483647 then
    some (.decimal128 precision scale)
  else none

/-- `_PG_TO_ARROW`. -/
def pgToArrowTable : List (String × DataType) :=
  [("smallint", .int16), ("integer", .int32), ("bigint", .int64), ("boolean", .bool),
    ("real", .float32), ("double precision", .float64), ("text", .largeString), ("uuid", .string),
    ("date", .date32), ("timestamp without time zone", .timestamp none),
    ("timestamp with time zone", .timestamp (some "UTC")), ("bytea", .largeBinary),
    ("json", .largeString), ("jsonb", .largeString)]

def isText (base : String) : Bool :=
  startsWith base "character varying" || startsWith base "varchar" || startsWith base "character"

def isNumeric (base : String) : Bool :=
  startsWith base "numeric" || startsWith base "decimal"

/-- The type of `numeric` or `numeric(p,s)`.  A numeric without modifiers is
unconstrained in PostgreSQL, and gets 38 digits with 9 after the point. -/
def numericType (base : String) : Option DataType :=
  if base.toList.contains '(' then (modifiers base.toList).bind (fun found => decimal128 found.1 found.2)
  else decimal128 38 9

theorem length_lower (text : String) : (lower text).toList.length = text.toList.length := by
  simp [lower]

/-- `base[:-2]`. -/
def withoutBrackets (base : String) : String :=
  String.ofList (base.toList.take (base.toList.length - 2))

theorem length_withoutBrackets {base : String} (array : endsWith base "[]" = true) :
    (withoutBrackets base).toList.length < base.toList.length := by
  have suffix : ['[', ']'].IsSuffix base.toList := List.isSuffixOf_iff_suffix.mp array
  have long : 2 ≤ base.toList.length := suffix.length_le
  simp [withoutBrackets]
  omega

/-- `pg_to_arrow_type`; an unknown type falls back to text.  The order of the tests
matters: an array of a character type begins like one and is text, and only the
other arrays are lists.  The recursion goes from an array to its items. -/
def pgToArrowType (pgType : String) : Option DataType :=
  let base := lower pgType
  match pgToArrowTable.lookup base with
  | some dataType => some dataType
  | none =>
      if isText base then some .largeString
      else if isNumeric base then numericType base
      else if _array : endsWith (lower pgType) "[]" = true then
        (pgToArrowType (withoutBrackets (lower pgType))).map DataType.largeList
      else some .largeString
termination_by pgType.toList.length
decreasing_by
  exact lt_of_lt_of_eq (length_withoutBrackets _array) (length_lower pgType)

/-- `arrow_schema_for`. -/
def arrowSchemaFor (columns : List SourceColumn) : Option (List ArrowField) :=
  columns.mapM (fun column =>
    (pgToArrowType column.pgType).map (fun dataType =>
      { name := column.name, dataType := dataType, nullable := column.nullable }))

/-- `_arrow_to_iceberg_type`.  No result is its ValueError, which only a list meets
here. -/
def arrowToIcebergType : DataType -> Option IcebergType
  | .int16 | .int32 => some .integer
  | .int64 => some .long
  | .bool => some .boolean
  | .float32 => some .float
  | .float64 => some .double
  | .string | .largeString => some .string
  | .largeBinary => some .binary
  | .date32 => some .date
  | .timestamp zone => some (if zone.isSome = true then .timestamptz else .timestamp)
  | .decimal128 precision scale => some (.decimal precision scale)
  | .largeList _ => none

/-- The Iceberg type of a column; a `uuid` has a type of its own here, although it
is text in the other schema. -/
def icebergTypeFor (pgType : String) : Option IcebergType :=
  if lower pgType = "uuid" then some .uuid else (pgToArrowType pgType).bind arrowToIcebergType

/-- The fields from the given id on.  The ids count the columns, which is all that a
new table needs of them. -/
def nestedFields : Nat -> List SourceColumn -> Option (List NestedField)
  | _, [] => some []
  | index, column :: columns => do
      let fieldType ← icebergTypeFor column.pgType
      let fields ← nestedFields (index + 1) columns
      return { fieldId := index, name := column.name, fieldType := fieldType, required := !column.nullable } ::
        fields

/-- `iceberg_schema_for`. -/
def icebergSchemaFor (columns : List SourceColumn) : Option (List NestedField) :=
  nestedFields 1 columns

/-- The kind of an Arrow type, as far as the choice of the watermark depends on it.
The tables that need only this leave the parameters out. -/
def DataType.kind : DataType -> ArrowType
  | .int16 => .int16
  | .int32 => .int32
  | .int64 => .int64
  | .bool => .bool
  | .float32 => .float32
  | .float64 => .float64
  | .string => .string
  | .largeString => .largeString
  | .largeBinary => .largeBinary
  | .date32 => .date32
  | .timestamp zone => .timestamp zone.isSome
  | .decimal128 _ _ => .decimal
  | .largeList _ => .largeList

theorem decimal128_eq_some {precision scale : Int} {dataType : DataType}
    (built : decimal128 precision scale = some dataType) :
    dataType = .decimal128 precision scale ∧ 1 ≤ precision ∧ precision ≤ 38 := by
  unfold decimal128 at built
  split at built
  · rename_i bounds
    exact ⟨(Option.some.inj built).symm, bounds.1, bounds.2.1⟩
  · cases built

/-- A numeric type is a decimal of a precision the format has. -/
theorem numericType_eq_some {base : String} {dataType : DataType}
    (built : numericType base = some dataType) :
    Exists fun precision : Int => Exists fun scale : Int =>
      dataType = .decimal128 precision scale ∧ 1 ≤ precision ∧ precision ≤ 38 := by
  unfold numericType at built
  split at built
  · rcases Option.bind_eq_some_iff.mp built with ⟨found, _, made⟩
    exact ⟨found.1, found.2, decimal128_eq_some made⟩
  · exact ⟨38, 9, decimal128_eq_some built⟩

theorem kind_lookup (base : String) :
    Schema.pgToArrowTable.lookup base = (pgToArrowTable.lookup base).map DataType.kind := by
  have tables : Schema.pgToArrowTable =
      pgToArrowTable.map (fun entry => (entry.1, entry.2.kind)) := rfl
  have mapped (entries : List (String × DataType)) :
      (entries.map (fun entry => (entry.1, entry.2.kind))).lookup base =
        (entries.lookup base).map DataType.kind := by
    induction entries with
    | nil => rfl
    | cons entry entries ih =>
        rw [List.map_cons, List.lookup_cons, List.lookup_cons, ih]
        cases base == entry.1 with
        | true => rfl
        | false => rfl
  rw [tables, mapped]

/-- Where the mapping succeeds, its result has the kind that the rest of the
pipeline looks at. -/
theorem kind_pgToArrowType {pgType : String} {dataType : DataType}
    (mapped : pgToArrowType pgType = some dataType) : dataType.kind = Schema.pgToArrowType pgType := by
  rw [pgToArrowType] at mapped
  unfold Schema.pgToArrowType
  simp only [kind_lookup]
  cases listed : pgToArrowTable.lookup (lower pgType) with
  | some found =>
      simp only [listed] at mapped
      rw [← Option.some.inj mapped]
      rfl
  | none =>
      simp only [listed] at mapped
      show dataType.kind =
        if isText (lower pgType) = true then ArrowType.largeString
        else if isNumeric (lower pgType) = true then ArrowType.decimal
        else if endsWith (lower pgType) "[]" = true then ArrowType.largeList
        else ArrowType.largeString
      by_cases text : isText (lower pgType) = true
      · rw [if_pos text] at mapped
        rw [if_pos text, ← Option.some.inj mapped]
        rfl
      · rw [if_neg text] at mapped
        rw [if_neg text]
        by_cases numeric : isNumeric (lower pgType) = true
        · rw [if_pos numeric] at mapped
          rw [if_pos numeric]
          rcases numericType_eq_some mapped with ⟨precision, scale, rfl, _⟩
          rfl
        · rw [if_neg numeric] at mapped
          rw [if_neg numeric]
          by_cases array : endsWith (lower pgType) "[]" = true
          · rw [dif_pos array] at mapped
            rw [if_pos array]
            rcases Option.map_eq_some_iff.mp mapped with ⟨item, _, rfl⟩
            rfl
          · rw [dif_neg array] at mapped
            rw [if_neg array, ← Option.some.inj mapped]
            rfl

end DataTypes
end WarehouseSync

import WarehouseSync.State.Watermarks

namespace WarehouseSync
namespace Schema

open Watermarks

/-!
# Column types (`extract/schema.py`)

The PostgreSQL type of a column decides its Arrow type, and the Arrow type
decides whether and how the column can be a watermark.
-/

structure Column where
  name : String
  pgType : String
deriving DecidableEq, Repr

/-- The Arrow types that occur; precisions and element types are left out.  This
coarser form is enough for the kind of a watermark column, which the jobs decide by
it. -/
inductive ArrowType where
  | int16
  | int32
  | int64
  | bool
  | float32
  | float64
  | string
  | largeString
  | largeBinary
  | date32
  | timestamp (hasZone : Bool)
  | decimal
  | largeList
deriving DecidableEq, Repr

/-- `str.lower` of the name of a type, as far as ASCII letters go.  The names that
are compared with it are all ASCII, and DuckDB folds the case of names in this way
too. -/
def lower (text : String) : String :=
  String.ofList (text.toList.map Char.toLower)

def startsWith (text start : String) : Bool :=
  start.toList.isPrefixOf text.toList

def endsWith (text ending : String) : Bool :=
  ending.toList.isSuffixOf text.toList

/-- `_PG_TO_ARROW`. -/
def pgToArrowTable : List (String × ArrowType) :=
  [("smallint", .int16), ("integer", .int32), ("bigint", .int64), ("boolean", .bool),
    ("real", .float32), ("double precision", .float64), ("text", .largeString), ("uuid", .string),
    ("date", .date32), ("timestamp without time zone", .timestamp false),
    ("timestamp with time zone", .timestamp true), ("bytea", .largeBinary), ("json", .largeString),
    ("jsonb", .largeString)]

/-- `pg_to_arrow_type`; an unknown type falls back to text.  This form leaves out
what the modifiers say, and so it never raises. -/
def pgToArrowType (pgType : String) : ArrowType :=
  let base := lower pgType
  match pgToArrowTable.lookup base with
  | some arrowType => arrowType
  | none =>
      if startsWith base "character varying" || startsWith base "varchar" ||
          startsWith base "character" then .largeString
      else if startsWith base "numeric" || startsWith base "decimal" then .decimal
      else if endsWith base "[]" then .largeList
      else .largeString

/-- `_watermark_kind`.  A watermark column of another type makes the object one that
the incremental job skips. -/
def watermarkKind : ArrowType -> Option WatermarkKind
  | .timestamp hasZone => some (if hasZone = true then .timestampTz else .timestampNaive)
  | .date32 => some .date
  | .int16 | .int32 | .int64 => some .integer
  | _ => none

/-- The kind of the watermark column of a schema, if it has one of a supported
type. -/
def kindOfColumn (columns : List Column) (watermarkColumn : String) : Option WatermarkKind :=
  (columns.find? (fun column => column.name == watermarkColumn)).bind
    (fun column => watermarkKind (pgToArrowType column.pgType))

end Schema
end WarehouseSync

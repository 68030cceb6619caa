import WarehouseSync.Extract.SchemaAgreement
import WarehouseSync.Orchestration.BootstrapJob

namespace WarehouseSync
namespace DefaultPartition

open DataTypes IcebergWriter SchemaAgreement Tables
open BootstrapJob (isZoned)
open Schema (endsWith lower startsWith)

/-!
# The type of the default partition column

Three tests look at the type of `created_at`: a prefix decides whether a table
is partitioned by its day, an exact lookup which Iceberg type the column gets,
and a phrase whether its day is taken in UTC.  They agree on the two timestamp
types without a precision.  With a precision, or as an array, the column is
partitioned by day but is no timestamp in the lake.
-/

def discoveredObject (schema name : String) (columns : List SourceColumn) : DiscoveredObject :=
  { schema := schema, name := name, columns := columns.map SourceColumn.toColumn }

/-- The type that `iceberg_schema_for` gives a column.  There is none for any column
as soon as one of them cannot be mapped, because the schema is not built then. -/
def columnType (columns : List SourceColumn) (name : String) : Option IcebergType :=
  (icebergSchemaFor columns).bind (fun fields =>
    (fields.find? (fun field => field.name == name)).map (fun field => field.fieldType))

/-- The spec is built, and the source of a day is a timestamp of the kind that
`part_tz` says.  A day of anything else cannot be taken, and a wrong kind would put
rows into the days of another zone. -/
structure SpecFits (schema name : String) (columns : List SourceColumn) : Prop where
  builds : Exists fun spec : List PartitionField =>
    buildPartitionSpec (columns.map (fun column => column.name)) 1000
      (defaultPartitionFor (discoveredObject schema name columns)) = .ok spec
  timestamps : forall entry, entry ∈ defaultPartitionFor (discoveredObject schema name columns) ->
    entry.transform = "day" ->
      Exists fun fieldType : IcebergType => columnType columns entry.column = some fieldType ∧
        (fieldType = .timestamp ∨ fieldType = .timestamptz) ∧
        (isZoned (columns.map SourceColumn.toColumn) entry.column = true ↔ fieldType = .timestamptz)

/-- A timestamp type without a precision.  These are the only two texts that the
type mapping looks for. -/
def IsPlainTimestamp (pgType : String) : Prop :=
  lower pgType = "timestamp without time zone" ∨ lower pgType = "timestamp with time zone"

/-- The tests agree: a `created_at` that looks like a timestamp is a plain one, and
no column of the table keeps the schema from being built.  The configuration tests
the beginning of the type's name, while the type mapping compares the whole of it.
-/
def TestsAgree (columns : List SourceColumn) : Prop :=
  forall column, columns.find? (fun column => column.name == "created_at") = some column ->
    startsWith (lower column.pgType) "timestamp" = true ->
      IsPlainTimestamp column.pgType ∧ forall other, other ∈ columns -> Representable other.pgType

/-- The listed types that look like timestamps. -/
theorem listed_timestamp {base : String} {dataType : DataType}
    (listed : pgToArrowTable.lookup base = some dataType) (looks : startsWith base "timestamp" = true) :
    (base = "timestamp without time zone" ∧ dataType = .timestamp none) ∨
      (base = "timestamp with time zone" ∧ dataType = .timestamp (some "UTC")) := by
  have every : forall entry, entry ∈ pgToArrowTable -> startsWith entry.1 "timestamp" = true ->
      (entry.1 = "timestamp without time zone" ∧ entry.2 = .timestamp none) ∨
        (entry.1 = "timestamp with time zone" ∧ entry.2 = .timestamp (some "UTC")) := by decide
  rcases List.lookup_eq_some_iff.mp listed with ⟨before, after, split, _⟩
  apply every (base, dataType) _ looks
  rw [split]
  exact List.mem_append_right before List.mem_cons_self

/-- What looks like a timestamp does not start like a type that does not. -/
theorem not_startsWith_of_timestamp {base other : String} (looks : startsWith base "timestamp" = true)
    (apart : startsWith "timestamp" other = false) (back : startsWith other "timestamp" = false) :
    startsWith base other = false := by
  apply Bool.eq_false_iff.mpr
  intro starts
  have first : "timestamp".toList <+: base.toList := List.isPrefixOf_iff_prefix.mp looks
  have second : other.toList <+: base.toList := List.isPrefixOf_iff_prefix.mp starts
  rcases List.prefix_or_prefix_of_prefix first second with shorter | longer
  · rw [startsWith, List.isPrefixOf_iff_prefix.mpr shorter] at back
    cases back
  · rw [startsWith, List.isPrefixOf_iff_prefix.mpr longer] at apart
    cases apart

theorem not_isText_of_timestamp {base : String} (looks : startsWith base "timestamp" = true) :
    isText base = false := by
  rw [isText, not_startsWith_of_timestamp looks (by decide : _ = false) (by decide),
    not_startsWith_of_timestamp looks (by decide : _ = false) (by decide),
    not_startsWith_of_timestamp looks (by decide : _ = false) (by decide)]
  rfl

theorem not_isNumeric_of_timestamp {base : String} (looks : startsWith base "timestamp" = true) :
    isNumeric base = false := by
  rw [isNumeric, not_startsWith_of_timestamp looks (by decide : _ = false) (by decide),
    not_startsWith_of_timestamp looks (by decide : _ = false) (by decide)]
  rfl

/-- The Iceberg types of what looks like a timestamp. -/
theorem icebergTypeFor_timestamp {pgType : String} (looks : startsWith (lower pgType) "timestamp" = true) :
    (lower pgType = "timestamp without time zone" ∧ icebergTypeFor pgType = some .timestamp) ∨
      (lower pgType = "timestamp with time zone" ∧ icebergTypeFor pgType = some .timestamptz) ∨
      (¬ IsPlainTimestamp pgType ∧ (icebergTypeFor pgType = some .string ∨ icebergTypeFor pgType = none)) := by
  have other : lower pgType ≠ "uuid" := by
    intro uuid
    rw [uuid] at looks
    exact absurd looks (by decide)
  rw [icebergTypeFor, if_neg other, pgToArrowType]
  cases listed : pgToArrowTable.lookup (lower pgType) with
  | some dataType =>
      rcases listed_timestamp listed looks with ⟨plain, rfl⟩ | ⟨plain, rfl⟩
      · exact Or.inl ⟨plain, rfl⟩
      · exact Or.inr (Or.inl ⟨plain, rfl⟩)
  | none =>
      right
      right
      constructor
      · rintro (plain | plain)
        · rw [plain] at listed
          cases listed
        · rw [plain] at listed
          cases listed
      · simp only [not_isText_of_timestamp looks, not_isNumeric_of_timestamp looks, Bool.false_eq_true,
          if_false]
        by_cases array : endsWith (lower pgType) "[]" = true
        · rw [dif_pos array]
          right
          cases pgToArrowType (withoutBrackets (lower pgType)) with
          | none => rfl
          | some item => rfl
        · rw [dif_neg array]
          exact Or.inl rfl

theorem find_nestedFields {index : Nat} {columns : List SourceColumn} {fields : List NestedField}
    (built : nestedFields index columns = some fields) (name : String) :
    (fields.find? (fun field => field.name == name)).map (fun field => field.fieldType) =
      (columns.find? (fun column => column.name == name)).bind
        (fun column => icebergTypeFor column.pgType) := by
  induction columns generalizing index fields with
  | nil =>
      cases built
      rfl
  | cons column columns ih =>
      cases typed : icebergTypeFor column.pgType with
      | none =>
          rw [nestedFields, typed] at built
          cases built
      | some fieldType =>
          rw [nestedFields_cons typed] at built
          rcases Option.map_eq_some_iff.mp built with ⟨rest, others, rfl⟩
          rw [List.find?_cons, List.find?_cons]
          cases column.name == name with
          | true => exact typed.symm
          | false => exact ih others

/-- The type of a column in a schema that is built. -/
theorem columnType_of_representable {columns : List SourceColumn}
    (representable : forall column, column ∈ columns -> Representable column.pgType) (name : String) :
    columnType columns name = (columns.find? (fun column => column.name == name)).bind
      (fun column => icebergTypeFor column.pgType) := by
  have built : (icebergSchemaFor columns).isSome = true := isSome_nestedFields_iff.mpr representable
  rcases Option.isSome_iff_exists.mp built with ⟨fields, schema⟩
  rw [columnType, schema, Option.bind_some]
  exact find_nestedFields schema name

theorem representable_of_columnType {columns : List SourceColumn} {name : String} {fieldType : IcebergType}
    (typed : columnType columns name = some fieldType) :
    forall column, column ∈ columns -> Representable column.pgType := by
  rcases Option.bind_eq_some_iff.mp typed with ⟨fields, schema, _⟩
  have built : (icebergSchemaFor columns).isSome = true := by rw [schema]; rfl
  exact isSome_nestedFields_iff.mp built

theorem find_discoveredObject (schema name : String) (columns : List SourceColumn) (wanted : String) :
    (discoveredObject schema name columns).find wanted =
      (columns.find? (fun column => column.name == wanted)).map SourceColumn.toColumn := by
  rw [DiscoveredObject.find, discoveredObject, List.find?_map]
  rfl

theorem isZoned_of_find {columns : List SourceColumn} {name : String} {column : SourceColumn}
    (found : columns.find? (fun column => column.name == name) = some column) :
    isZoned (columns.map SourceColumn.toColumn) name =
      decide ("with time zone".toList <:+: (lower column.pgType).toList) := by
  have same : (columns.map SourceColumn.toColumn).find? (fun column => column.name == name) =
      some column.toColumn := by
    rw [List.find?_map]
    exact congrArg (Option.map SourceColumn.toColumn) found
  rw [isZoned, same]

/-! ## The default partition -/

/-- The entry for `created_at`. -/
def byCreationDay : PartitionBy :=
  { column := "created_at", transform := "day", buckets := none }

theorem defaultPartitionFor_day {columns : List SourceColumn} {column : SourceColumn} (schema name : String)
    (found : columns.find? (fun column => column.name == "created_at") = some column)
    (looks : startsWith (lower column.pgType) "timestamp" = true) :
    defaultPartitionFor (discoveredObject schema name columns) = [byCreationDay] := by
  rw [defaultPartitionFor, find_discoveredObject, found]
  exact if_pos looks

/-- An object without a `created_at` that looks like a timestamp is not
partitioned. -/
theorem defaultPartitionFor_nil {columns : List SourceColumn} (schema name : String)
    (unlike : forall column, columns.find? (fun column => column.name == "created_at") = some column ->
      ¬ startsWith (lower column.pgType) "timestamp" = true) :
    defaultPartitionFor (discoveredObject schema name columns) = [] := by
  rw [defaultPartitionFor, find_discoveredObject]
  cases found : columns.find? (fun column => column.name == "created_at") with
  | none => rfl
  | some column => exact if_neg (unlike column found)

theorem buildPartitionSpec_day {names : List String} (listed : "created_at" ∈ names) :
    Exists fun spec : List PartitionField => buildPartitionSpec names 1000
      [byCreationDay] = .ok spec := by
  rw [byCreationDay, buildPartitionSpec, buildPartitionField, if_neg (not_not.mpr listed), if_neg (by decide),
    if_pos rfl]
  exact ⟨_, rfl⟩

/-- The tests on the types of the columns of a partitioned object. -/
theorem timestamps_iff {columns : List SourceColumn} {column : SourceColumn}
    (found : columns.find? (fun column => column.name == "created_at") = some column)
    (looks : startsWith (lower column.pgType) "timestamp" = true) :
    (Exists fun fieldType : IcebergType => columnType columns "created_at" = some fieldType ∧
        (fieldType = .timestamp ∨ fieldType = .timestamptz) ∧
        (isZoned (columns.map SourceColumn.toColumn) "created_at" = true ↔ fieldType = .timestamptz)) ↔
      IsPlainTimestamp column.pgType ∧ forall other, other ∈ columns -> Representable other.pgType := by
  have typed (representable : forall other, other ∈ columns -> Representable other.pgType) :
      columnType columns "created_at" = icebergTypeFor column.pgType := by
    rw [columnType_of_representable representable, found]
    rfl
  rw [isZoned_of_find found]
  constructor
  · rintro ⟨fieldType, given, timestamp, _⟩
    have representable := representable_of_columnType given
    refine ⟨?_, representable⟩
    rw [typed representable] at given
    rcases icebergTypeFor_timestamp looks with ⟨plain, _⟩ | ⟨plain, _⟩ | ⟨_, text | nothing⟩
    · exact Or.inl plain
    · exact Or.inr plain
    · rw [text] at given
      cases given
      rcases timestamp with impossible | impossible
      · cases impossible
      · cases impossible
    · rw [nothing] at given
      cases given
  · rintro ⟨plain, representable⟩
    rw [typed representable]
    rcases icebergTypeFor_timestamp looks with ⟨base, given⟩ | ⟨base, given⟩ | ⟨unlisted, _⟩
    · rw [base]
      exact ⟨.timestamp, given, Or.inl rfl, by decide⟩
    · rw [base]
      exact ⟨.timestamptz, given, Or.inr rfl, by decide⟩
    · exact absurd plain unlisted

/-- Nothing is to be shown of an object that is not partitioned. -/
theorem specFits_of_nil {schema name : String} {columns : List SourceColumn}
    (nothing : defaultPartitionFor (discoveredObject schema name columns) = []) :
    SpecFits schema name columns :=
  { builds := ⟨[], by rw [nothing]; rfl⟩
    timestamps := by
      intro entry member
      rw [nothing] at member
      cases member }

/-- The default spec fits its column exactly when the tests agree.  A `created_at`
with a precision passes the first test and becomes a string in the lake, of which no
day can be taken. -/
theorem spec_fits_iff (schema name : String) (columns : List SourceColumn) :
    SpecFits schema name columns ↔ TestsAgree columns := by
  constructor
  · intro fits column found looks
    apply (timestamps_iff found looks).mp
    have partitioned : byCreationDay ∈ defaultPartitionFor (discoveredObject schema name columns) := by
      rw [defaultPartitionFor_day schema name found looks]
      exact List.mem_singleton_self byCreationDay
    exact fits.timestamps byCreationDay partitioned rfl
  · intro agree
    by_cases partitioned : Exists fun column : SourceColumn =>
        columns.find? (fun column => column.name == "created_at") = some column ∧
          startsWith (lower column.pgType) "timestamp" = true
    · rcases partitioned with ⟨column, found, looks⟩
      have listed : "created_at" ∈ columns.map (fun column => column.name) := by
        have named := List.find?_some found
        rw [← of_decide_eq_true named]
        exact List.mem_map_of_mem (List.mem_of_find?_eq_some found)
      refine ⟨?_, ?_⟩
      · rw [defaultPartitionFor_day schema name found looks]
        exact buildPartitionSpec_day listed
      · rw [defaultPartitionFor_day schema name found looks]
        intro entry member _
        cases List.mem_singleton.mp member
        exact (timestamps_iff found looks).mpr (agree column found looks)
    · apply specFits_of_nil
      apply defaultPartitionFor_nil
      intro column found looks
      exact partitioned ⟨column, found, looks⟩

/-- Events with the milliseconds of their creation. -/
def preciseColumn : SourceColumn :=
  { name := "created_at", pgType := "timestamp(3) with time zone", nullable := true }

/-- A precision on the type of `created_at` makes it text in the lake. -/
theorem precise_created_at_is_text : ¬ SpecFits "public" "events" [preciseColumn] := by
  intro fits
  have looks : startsWith (lower preciseColumn.pgType) "timestamp" = true := by decide
  have found : [preciseColumn].find? (fun column => column.name == "created_at") = some preciseColumn := rfl
  have partitioned : byCreationDay ∈ defaultPartitionFor (discoveredObject "public" "events" [preciseColumn]) := by
    rw [defaultPartitionFor_day "public" "events" found looks]
    exact List.mem_singleton_self byCreationDay
  rcases (timestamps_iff found looks).mp (fits.timestamps byCreationDay partitioned rfl) with ⟨plain, _⟩
  rcases plain with impossible | impossible
  · exact absurd impossible (by decide)
  · exact absurd impossible (by decide)

end DefaultPartition
end WarehouseSync

import WarehouseSync.Extract.DataTypes

namespace WarehouseSync
namespace SchemaAgreement

open DataTypes
open Schema (endsWith lower)

/-!
# The Arrow schema and the Iceberg schema of a table

Parquet files are written with the first and registered in a lake table created
with the second.  The second is derived from the first, column by column, except
that a `uuid` column has an Iceberg type of its own.  Some types have no Iceberg
type at all: a list has none, and a precision beyond that of Arrow's decimals
has no Arrow type either.
-/

/-- The modifiers, if there are any, are those of a decimal.  PostgreSQL admits up
to a thousand digits, and Arrow thirty-eight. -/
def DecimalModifiers (base : List Char) : Prop :=
  '(' ∈ base -> Exists fun precision : Int => Exists fun scale : Int =>
    modifiers base = some (precision, scale) ∧ 1 ≤ precision ∧ precision ≤ 38 ∧
      -2147483648 ≤ scale ∧ scale ≤ 2147483647

/-- A type that is listed, a text type, a numeric type that is a decimal, or any
other type that is no array.  The order of the tests in the mapping is in it: an
array of a character type is a text type. -/
def Representable (pgType : String) : Prop :=
  (pgToArrowTable.lookup (lower pgType)).isSome = true ∨ isText (lower pgType) = true ∨
    if isNumeric (lower pgType) = true then DecimalModifiers (lower pgType).toList
    else endsWith (lower pgType) "[]" = false

/-- Both schemas list the columns in order, with types that are related.  It is
stated for any relation of the types, since two of them are of interest. -/
inductive Relates (related : SourceColumn -> DataType -> IcebergType -> Prop) :
    List SourceColumn -> List ArrowField -> List NestedField -> Prop where
  | nil : Relates related [] [] []
  | cons {column : SourceColumn} {field : ArrowField} {nested : NestedField} {columns fields nesteds} :
      field.name = column.name -> nested.name = column.name ->
        related column field.dataType nested.fieldType -> Relates related columns fields nesteds ->
          Relates related (column :: columns) (field :: fields) (nested :: nesteds)

/-- Both schemas are built and relate.  A schema that cannot be built relates to
nothing, so that a failure of either mapping counts as well. -/
def SchemasRelate (related : SourceColumn -> DataType -> IcebergType -> Prop)
    (columns : List SourceColumn) : Prop :=
  Exists fun fields : List ArrowField => Exists fun nesteds : List NestedField =>
    arrowSchemaFor columns = some fields ∧ icebergSchemaFor columns = some nesteds ∧
      Relates related columns fields nesteds

/-- The Iceberg type is the one that the Arrow type converts to.  This is what
`add_files` asks of a file, which has the Arrow schema, and of the table. -/
def Converts (_column : SourceColumn) (dataType : DataType) (fieldType : IcebergType) : Prop :=
  arrowToIcebergType dataType = some fieldType

/-- The same, but for a `uuid`, which is text in Arrow.  It says how far the two
mappings agree where the special case of one of them is left alone. -/
def ConvertsButUuid (column : SourceColumn) (dataType : DataType) (fieldType : IcebergType) : Prop :=
  if lower column.pgType = "uuid" then dataType = .string ∧ fieldType = .uuid
  else arrowToIcebergType dataType = some fieldType

theorem isSome_decimal128_iff {precision scale : Int} :
    (decimal128 precision scale).isSome = true ↔
      1 ≤ precision ∧ precision ≤ 38 ∧ -2147483648 ≤ scale ∧ scale ≤ 2147483647 := by
  unfold decimal128
  by_cases bounds : 1 ≤ precision ∧ precision ≤ 38 ∧ -2147483648 ≤ scale ∧ scale ≤ 2147483647
  · rw [if_pos bounds]
    exact ⟨fun _ => bounds, fun _ => rfl⟩
  · rw [if_neg bounds]
    exact ⟨fun impossible => absurd impossible Bool.false_ne_true, fun inside => absurd inside bounds⟩

theorem isSome_numericType_iff {base : String} :
    (numericType base).isSome = true ↔ DecimalModifiers base.toList := by
  unfold numericType DecimalModifiers
  by_cases modified : '(' ∈ base.toList
  · rw [if_pos (List.contains_iff_mem.mpr modified)]
    cases found : modifiers base.toList with
    | none =>
        constructor
        · intro impossible
          cases impossible
        · intro named
          rcases named modified with ⟨_, _, impossible, _⟩
          cases impossible
    | some pair =>
        rw [Option.bind_some, isSome_decimal128_iff]
        constructor
        · intro bounds _
          exact ⟨pair.1, pair.2, rfl, bounds⟩
        · intro named
          rcases named modified with ⟨precision, scale, same, bounds⟩
          cases same
          exact bounds
  · have plain : ¬ base.toList.contains '(' = true := fun listed => modified (List.contains_iff_mem.mp listed)
    rw [if_neg plain]
    constructor
    · intro _ listed
      exact absurd listed modified
    · intro _
      exact isSome_decimal128_iff.mpr ⟨by decide, by decide, by decide, by decide⟩

/-- No listed type is a list. -/
theorem isSome_convert_listed {base : String} {dataType : DataType}
    (listed : pgToArrowTable.lookup base = some dataType) : (arrowToIcebergType dataType).isSome = true := by
  have every : forall entry, entry ∈ pgToArrowTable -> (arrowToIcebergType entry.2).isSome = true := by decide
  rcases List.lookup_eq_some_iff.mp listed with ⟨before, after, split, _⟩
  apply every (base, dataType)
  rw [split]
  exact List.mem_append_right before List.mem_cons_self

theorem isSome_convert_numeric {base : String} :
    ((numericType base).bind arrowToIcebergType).isSome = (numericType base).isSome := by
  cases made : numericType base with
  | none => rfl
  | some dataType =>
      rcases numericType_eq_some made with ⟨precision, scale, rfl, _⟩
      rfl

/-- A type converts exactly when it is representable: the conversion fails for
the lists, and the Arrow type only for a numeric type or an element of a list. -/
theorem isSome_convert_iff {pgType : String} :
    ((pgToArrowType pgType).bind arrowToIcebergType).isSome = true ↔ Representable pgType := by
  rw [pgToArrowType, Representable]
  cases listed : pgToArrowTable.lookup (lower pgType) with
  | some dataType =>
      simp only [Option.bind_some, isSome_convert_listed listed, Option.isSome_some, true_or]
  | none =>
      by_cases text : isText (lower pgType) = true
      · simp only [text, if_true, Option.bind_some, true_or, or_true, arrowToIcebergType, Option.isSome_some]
      · by_cases numeric : isNumeric (lower pgType) = true
        · simp only [text, numeric, if_true, Bool.false_eq_true, if_false, isSome_convert_numeric,
            isSome_numericType_iff, Option.isSome_none, false_or]
        · simp only [text, numeric, Bool.false_eq_true, if_false, Option.isSome_none, false_or]
          by_cases array : endsWith (lower pgType) "[]" = true
          · rw [dif_pos array]
            cases pgToArrowType (withoutBrackets (lower pgType)) with
            | none => simp [array]
            | some item => simp [array, arrowToIcebergType]
          · rw [dif_neg array]
            simp [array, arrowToIcebergType]

theorem pgToArrowType_uuid {pgType : String} (uuid : lower pgType = "uuid") :
    pgToArrowType pgType = some .string := by
  rw [pgToArrowType, uuid]
  rfl

/-- A representable type has both types, and they correspond. -/
theorem types_of_representable {column : SourceColumn} (representable : Representable column.pgType) :
    Exists fun dataType : DataType => Exists fun fieldType : IcebergType =>
      pgToArrowType column.pgType = some dataType ∧ icebergTypeFor column.pgType = some fieldType ∧
        ConvertsButUuid column dataType fieldType := by
  unfold ConvertsButUuid icebergTypeFor
  by_cases uuid : lower column.pgType = "uuid"
  · simp only [if_pos uuid]
    exact ⟨.string, .uuid, pgToArrowType_uuid uuid, rfl, rfl, rfl⟩
  · simp only [if_neg uuid]
    rcases Option.isSome_iff_exists.mp (isSome_convert_iff.mpr representable) with ⟨fieldType, converted⟩
    rcases Option.bind_eq_some_iff.mp converted with ⟨dataType, mapped, agrees⟩
    exact ⟨dataType, fieldType, mapped, converted, agrees⟩

theorem isSome_icebergTypeFor_iff {pgType : String} :
    (icebergTypeFor pgType).isSome = true ↔ Representable pgType := by
  unfold icebergTypeFor
  by_cases uuid : lower pgType = "uuid"
  · rw [if_pos uuid]
    constructor
    · intro _
      left
      rw [uuid]
      rfl
    · intro _
      rfl
  · rw [if_neg uuid]
    exact isSome_convert_iff

/-! ## The schemas -/

theorem arrowSchemaFor_cons {column : SourceColumn} {columns : List SourceColumn} {dataType : DataType}
    {fields : List ArrowField} (mapped : pgToArrowType column.pgType = some dataType)
    (others : arrowSchemaFor columns = some fields) :
    arrowSchemaFor (column :: columns) =
      some ({ name := column.name, dataType := dataType, nullable := column.nullable } :: fields) := by
  unfold arrowSchemaFor at others ⊢
  rw [List.mapM_cons, others, mapped]
  rfl

theorem nestedFields_cons {index : Nat} {column : SourceColumn} {columns : List SourceColumn}
    {fieldType : IcebergType} (mapped : icebergTypeFor column.pgType = some fieldType) :
    nestedFields index (column :: columns) = (nestedFields (index + 1) columns).map (fun fields =>
      { fieldId := index, name := column.name, fieldType := fieldType, required := !column.nullable } ::
        fields) := by
  rw [nestedFields, mapped]
  cases nestedFields (index + 1) columns with
  | none => rfl
  | some fields => rfl

/-- The columns from any field id on. -/
theorem relates_of_representable {columns : List SourceColumn} (index : Nat)
    (representable : forall column, column ∈ columns -> Representable column.pgType) :
    Exists fun fields : List ArrowField => Exists fun nesteds : List NestedField =>
      arrowSchemaFor columns = some fields ∧ nestedFields index columns = some nesteds ∧
        Relates ConvertsButUuid columns fields nesteds := by
  induction columns generalizing index with
  | nil => exact ⟨[], [], rfl, rfl, Relates.nil⟩
  | cons column columns ih =>
      have rest := ih (index + 1) (fun other member => representable other (List.mem_cons_of_mem _ member))
      rcases rest with ⟨fields, nesteds, arrow, iceberg, relate⟩
      rcases types_of_representable (representable column List.mem_cons_self) with
        ⟨dataType, fieldType, mapped, typed, related⟩
      let nested : NestedField :=
        { fieldId := index, name := column.name, fieldType := fieldType, required := !column.nullable }
      refine ⟨_, nested :: nesteds, arrowSchemaFor_cons mapped arrow, ?_,
        Relates.cons rfl rfl related relate⟩
      rw [nestedFields_cons typed, iceberg]
      rfl

/-- Columns of representable types have both schemas, and the schemas agree but
for the `uuid` columns. -/
theorem schemas_agree (columns : List SourceColumn)
    (representable : forall column, column ∈ columns -> Representable column.pgType) :
    SchemasRelate ConvertsButUuid columns :=
  relates_of_representable 1 representable

/-- No other columns have an Iceberg schema. -/
theorem isSome_nestedFields_iff {columns : List SourceColumn} {index : Nat} :
    (nestedFields index columns).isSome = true ↔
      forall column, column ∈ columns -> Representable column.pgType := by
  induction columns generalizing index with
  | nil =>
      constructor
      · rintro _ column impossible
        cases impossible
      · intro _
        rfl
  | cons column columns ih =>
      rw [List.forall_mem_cons, ← @ih (index + 1), ← isSome_icebergTypeFor_iff]
      cases typed : icebergTypeFor column.pgType with
      | none =>
          rw [nestedFields, typed]
          constructor
          · intro impossible
            cases impossible
          · rintro ⟨impossible, _⟩
            cases impossible
      | some fieldType =>
          rw [nestedFields_cons typed, Option.isSome_map]
          exact ⟨fun rest => ⟨rfl, rest⟩, fun both => both.2⟩

/-- A table with a key, an amount, tags that are kept as text, and a type that
the mapping does not know. -/
def orderColumns : List SourceColumn :=
  [{ name := "id", pgType := "bigint", nullable := false },
    { name := "token", pgType := "uuid", nullable := false },
    { name := "amount", pgType := "numeric(12,2)", nullable := true },
    { name := "tags", pgType := "character varying(20)[]", nullable := true },
    { name := "placed", pgType := "timestamp(3) with time zone", nullable := true }]

example : SchemasRelate ConvertsButUuid orderColumns := by
  apply schemas_agree
  intro column member
  simp only [orderColumns, List.mem_cons, List.not_mem_nil, or_false] at member
  rcases member with rfl | rfl | rfl | rfl | rfl
  · exact Or.inl (by decide)
  · exact Or.inl (by decide)
  · refine Or.inr (Or.inr ?_)
    rw [if_pos (by decide)]
    intro _
    exact ⟨12, 2, by decide, by decide, by decide, by decide, by decide⟩
  · exact Or.inr (Or.inl (by decide))
  · refine Or.inr (Or.inr ?_)
    rw [if_neg (by decide)]
    decide

theorem Relates.imp {related other : SourceColumn -> DataType -> IcebergType -> Prop}
    {columns : List SourceColumn} {fields : List ArrowField} {nesteds : List NestedField}
    (weaker : forall column, column ∈ columns -> forall dataType fieldType,
      related column dataType fieldType -> other column dataType fieldType)
    (relates : Relates related columns fields nesteds) : Relates other columns fields nesteds := by
  induction relates with
  | nil => exact Relates.nil
  | cons arrowName icebergName agrees _ ih =>
      exact Relates.cons arrowName icebergName (weaker _ List.mem_cons_self _ _ agrees)
        (ih (fun column member => weaker column (List.mem_cons_of_mem _ member)))

/-- The Iceberg type of a `uuid` is not the one its Arrow type converts to, so such a
column keeps the schemas apart wherever it stands. -/
theorem not_uuid_of_relates {columns : List SourceColumn} {fields : List ArrowField} {nesteds : List NestedField}
    {index : Nat} (arrow : arrowSchemaFor columns = some fields)
    (iceberg : nestedFields index columns = some nesteds) (relates : Relates Converts columns fields nesteds) :
    forall column, column ∈ columns -> lower column.pgType ≠ "uuid" := by
  induction relates generalizing index with
  | nil =>
      rintro column impossible
      cases impossible
  | @cons column field nested columns fields nesteds _ _ agrees _ ih =>
      have mapped : pgToArrowType column.pgType = some field.dataType ∧ arrowSchemaFor columns = some fields := by
        unfold arrowSchemaFor at arrow ⊢
        rw [List.mapM_cons] at arrow
        rcases Option.bind_eq_some_iff.mp arrow with ⟨first, made, rest⟩
        rcases Option.bind_eq_some_iff.mp rest with ⟨others, madeToo, same⟩
        rcases Option.map_eq_some_iff.mp made with ⟨dataType, isType, rfl⟩
        cases same
        exact ⟨isType, madeToo⟩
      have typed : icebergTypeFor column.pgType = some nested.fieldType ∧
          nestedFields (index + 1) columns = some nesteds := by
        cases made : icebergTypeFor column.pgType with
        | none =>
            rw [nestedFields, made] at iceberg
            cases iceberg
        | some fieldType =>
            rw [nestedFields_cons made] at iceberg
            rcases Option.map_eq_some_iff.mp iceberg with ⟨others, madeToo, same⟩
            cases same
            exact ⟨rfl, madeToo⟩
      rw [List.forall_mem_cons]
      refine ⟨fun uuid => ?_, ih mapped.2 typed.2⟩
      have text := (pgToArrowType_uuid uuid).symm.trans mapped.1
      have own := typed.1
      rw [icebergTypeFor, if_pos uuid] at own
      rw [Converts, ← Option.some.inj text, ← Option.some.inj own] at agrees
      cases agrees

/-- The schemas are built and agree exactly for columns of representable types, none
of them a `uuid`.  One column is enough to spoil a table, since both schemas are
built as a whole. -/
theorem schemasRelate_iff (columns : List SourceColumn) :
    SchemasRelate Converts columns ↔
      forall column, column ∈ columns -> Representable column.pgType ∧ lower column.pgType ≠ "uuid" := by
  constructor
  · rintro ⟨fields, nesteds, arrow, iceberg, relates⟩ column member
    have representable := isSome_nestedFields_iff.mp (Option.isSome_iff_exists.mpr ⟨nesteds, iceberg⟩)
    exact ⟨representable column member, not_uuid_of_relates arrow iceberg relates column member⟩
  · intro fit
    rcases schemas_agree columns (fun column member => (fit column member).1) with
      ⟨fields, nesteds, arrow, iceberg, relates⟩
    refine ⟨fields, nesteds, arrow, iceberg, relates.imp (fun column member dataType fieldType agrees => ?_)⟩
    rw [ConvertsButUuid, if_neg (fit column member).2] at agrees
    exact agrees

/-- The text of a `uuid` column does not convert to its Iceberg type, and an array of
integers has no Iceberg type. -/
theorem uuid_does_not_convert :
    ¬ SchemasRelate Converts [{ name := "token", pgType := "uuid", nullable := false }] ∧
      ¬ SchemasRelate Converts [{ name := "scores", pgType := "integer[]", nullable := true }] := by
  constructor
  · rintro ⟨fields, nesteds, arrow, iceberg, relates⟩
    have lowered : lower "uuid" = "uuid" := by decide
    exact not_uuid_of_relates arrow iceberg relates _ List.mem_cons_self lowered
  · rintro ⟨fields, nesteds, _, iceberg, _⟩
    have representable := isSome_nestedFields_iff.mp (Option.isSome_iff_exists.mpr ⟨nesteds, iceberg⟩) _
      List.mem_cons_self
    rcases representable with listed | text | other
    · exact absurd listed (by decide)
    · exact absurd text (by decide)
    · rw [if_neg (by decide)] at other
      exact absurd other (by decide)

end SchemaAgreement
end WarehouseSync

import WarehouseSync.Extract.DataTypes
import WarehouseSync.Load.IcebergWriter

namespace WarehouseSync
namespace SchemaEvolution

open DataTypes

/-!
# Evolving the types of a lake table (`load/iceberg_writer.py`)

The union of two schemas adds and promotes columns in one transaction.  It
raises as a whole when one column changes its type in any other way, and the
handler around it skips the whole of it.  So a single incompatible column keeps
every addition and every promotion of its table out of the lake.
-/

/-- A field of a schema; the two schemas are matched by name.  Ids of fields are
left out, since a union by name assigns them and a drop never reuses them. -/
structure SchemaField where
  name : String
  fieldType : IcebergType
  required : Bool
deriving DecidableEq, Repr

/-- The promotions of the format: `int` to `long`, `float` to `double` and a decimal
to a larger precision.  They are the changes that leave every file of the table
readable. -/
def isPromotion : IcebergType -> IcebergType -> Bool
  | .integer, .long => true
  | .float, .double => true
  | .decimal before scale, .decimal after kept => decide (before < after) && decide (scale = kept)
  | _, _ => false

def findField (schema : List SchemaField) (name : String) : Option SchemaField :=
  schema.find? (fun field => field.name == name)

/-- The type of a column, if the schema has it. -/
def typeOf (schema : List SchemaField) (name : String) : Option IcebergType :=
  (findField schema name).map (fun field => field.fieldType)

section Union

-- The new columns that the union refuses to add, such as required ones.
variable (addRefused : SchemaField -> Bool)

/-- The union raises because of this source column: its type has changed in a way
that is no promotion, or it is new and the catalog does not take it. -/
def changeRefused (lake : List SchemaField) (field : SchemaField) : Bool :=
  match findField lake field.name with
  | some old => decide (old.fieldType ≠ field.fieldType) && !isPromotion old.fieldType field.fieldType
  | none => addRefused field

def unionRefused (lake source : List SchemaField) : Bool :=
  source.any (changeRefused addRefused lake)

/-- A lake column with the type of the source.  Only a promotion gets this far, and
a column that the source has as nullable loses its `required`. -/
def unionField (source : List SchemaField) (old : SchemaField) : SchemaField :=
  match findField source old.name with
  | some new => { old with fieldType := new.fieldType, required := old.required && new.required }
  | none => old

/-- `union_by_name`, all of it or nothing.  The changes are collected in one update
and committed together, so a single column that is refused takes the others with it.
-/
def unionByName (lake source : List SchemaField) : Option (List SchemaField) :=
  if unionRefused addRefused lake source = true then none
  else some (lake.map (unionField source) ++
    source.filter (fun field => (findField lake field.name).isNone))

/-- `evolve_table_schema`: a union that raises is skipped, and removed columns are
dropped when the setting asks for it.  The two are separate commits, so columns are
dropped also when the union was skipped. -/
def evolveTableSchema (dropRemoved : Bool) (kept : List String) (lake source : List SchemaField) :
    List SchemaField :=
  let evolved := (unionByName addRefused lake source).getD lake
  if dropRemoved = true then
    evolved.filter (fun field => (findField source field.name).isSome || decide (field.name ∈ kept))
  else evolved

end Union

/-- What a column is to become: added, promoted or left with its old type.  This is
the abstract description of an evolution, and it looks at one column at a time. -/
def expectedType (lake source : Option IcebergType) : Option IcebergType :=
  match lake, source with
  | none, new => new
  | some old, none => some old
  | some old, some new => if isPromotion old new = true then some new else some old

/-- Every column has become what it is to become, whatever the others are.  It is
the reading under which a change that cannot be applied is skipped by itself. -/
def PerColumn (lake source evolved : List SchemaField) : Prop :=
  forall name : String, typeOf evolved name = expectedType (typeOf lake name) (typeOf source name)

/-- The source has no column to add and none to promote.  In that case skipping the
whole union comes to the same as skipping the columns that are refused. -/
def NothingPending (lake source : List SchemaField) : Prop :=
  forall name new, typeOf source name = some new ->
    Exists fun old : IcebergType => typeOf lake name = some old ∧ isPromotion old new = false

theorem findField_map {update : SchemaField -> SchemaField}
    (sameName : forall field, (update field).name = field.name) (schema : List SchemaField)
    (name : String) : findField (schema.map update) name = (findField schema name).map update := by
  induction schema with
  | nil => rfl
  | cons field schema ih =>
      simp only [findField, List.map_cons, List.find?_cons, sameName] at ih ⊢
      cases field.name == name with
      | true => rfl
      | false => exact ih

theorem name_unionField (source : List SchemaField) (field : SchemaField) :
    (unionField source field).name = field.name := by
  unfold unionField
  split
  · rfl
  · rfl

theorem name_of_findField {schema : List SchemaField} {name : String} {field : SchemaField}
    (found : findField schema name = some field) : field.name = name :=
  beq_iff_eq.mp (List.find?_eq_some_iff_append.mp found).1

theorem findField_append (left right : List SchemaField) (name : String) :
    findField (left ++ right) name = (findField left name).or (findField right name) :=
  List.find?_append

/-- The columns the lake lacks are looked up as in the source. -/
theorem findField_added {lake : List SchemaField} {name : String} (source : List SchemaField)
    (lacks : findField lake name = none) :
    findField (source.filter (fun field => (findField lake field.name).isNone)) name =
      findField source name := by
  unfold findField at lacks ⊢
  rw [List.find?_filter]
  apply congrArg (fun test => source.find? test)
  funext field
  by_cases same : field.name = name
  · simp [same, lacks]
  · simp [same]

/-- A union that is not refused does the right thing for every column. -/
theorem perColumn_unionByName {addRefused : SchemaField -> Bool} {lake source evolved : List SchemaField}
    (united : unionByName addRefused lake source = some evolved) : PerColumn lake source evolved := by
  unfold unionByName at united
  split at united
  · cases united
  · rename_i accepted
    intro name
    rw [← Option.some.inj united, typeOf, findField_append, findField_map (name_unionField source)]
    cases old : findField lake name with
    | none =>
        rw [Option.map_none, Option.none_or, findField_added source old, typeOf, old]
        rfl
    | some field =>
        rw [Option.map_some, Option.some_or, Option.map_some, typeOf, old, unionField,
          name_of_findField old, typeOf]
        cases new : findField source name with
        | none => rfl
        | some change =>
            have inSource : change ∈ source := List.mem_of_find?_eq_some new
            have fine : changeRefused addRefused lake change = false := by
              by_contra refused
              exact accepted (List.any_eq_true.mpr ⟨change, inSource, by simpa using refused⟩)
            simp only [changeRefused, name_of_findField new, old] at fine
            simp only [Option.map_some, expectedType]
            by_cases promoted : isPromotion field.fieldType change.fieldType = true
            · rw [if_pos promoted]
            · rw [if_neg promoted]
              have same : field.fieldType = change.fieldType := by
                by_contra different
                simp [different, promoted] at fine
              rw [same]

theorem ne_of_isPromotion {old new : IcebergType} (promoted : isPromotion old new = true) : old ≠ new := by
  rintro rfl
  cases old with
  | decimal precision scale => simp [isPromotion] at promoted
  | integer | long | boolean | float | double | string | binary | date | timestamp | timestamptz | uuid =>
      cases promoted

/-- An unchanged lake is right exactly when nothing was pending. -/
theorem perColumn_unchanged_iff {lake source : List SchemaField} :
    PerColumn lake source lake ↔ NothingPending lake source := by
  constructor
  · intro right name new inSource
    have here := right name
    rw [inSource] at here
    cases inLake : typeOf lake name with
    | none =>
        rw [inLake] at here
        cases here
    | some old =>
        refine ⟨old, rfl, ?_⟩
        rw [inLake, expectedType] at here
        by_contra promoted
        rw [Bool.not_eq_false] at promoted
        rw [if_pos promoted] at here
        exact ne_of_isPromotion promoted (Option.some.inj here)
  · intro nothing name
    cases inSource : typeOf source name with
    | none =>
        cases typeOf lake name with
        | none => rfl
        | some old => rfl
    | some new =>
        rcases nothing name new inSource with ⟨old, inLake, still⟩
        rw [inLake, expectedType, if_neg (by simp [still])]

/-! ## What the docstring promises -/

/-- Evolving a table treats every column by itself exactly when no column makes the
union raise, or when there was nothing to add or to promote.  Otherwise one refused
column holds back the good changes of the others, in this run and in every later
one. -/
theorem evolves_per_column_iff (addRefused : SchemaField -> Bool) (kept : List String)
    (lake source : List SchemaField) :
    PerColumn lake source (evolveTableSchema addRefused false kept lake source) ↔
      (forall field, field ∈ source -> changeRefused addRefused lake field = false) ∨
        NothingPending lake source := by
  have accepted : unionRefused addRefused lake source = false ↔
      forall field, field ∈ source -> changeRefused addRefused lake field = false := by
    rw [unionRefused, List.any_eq_false]
    simp only [Bool.not_eq_true]
  have kept : evolveTableSchema addRefused false kept lake source =
      (unionByName addRefused lake source).getD lake := by
    rw [evolveTableSchema, if_neg Bool.false_ne_true]
  rw [kept, ← accepted]
  cases refused : unionRefused addRefused lake source with
  | true =>
      have skipped : unionByName addRefused lake source = none := if_pos refused
      rw [skipped, Option.getD_none, perColumn_unchanged_iff]
      constructor
      · intro nothing
        exact Or.inr nothing
      · rintro (impossible | nothing)
        · cases impossible
        · exact nothing
  | false =>
      have united : unionByName addRefused lake source =
          some (lake.map (unionField source) ++
            source.filter (fun field => (findField lake field.name).isNone)) :=
        if_neg (by rw [refused]; exact Bool.false_ne_true)
      constructor
      · intro _
        exact Or.inl rfl
      · intro _
        rw [united, Option.getD_some]
        exact perColumn_unionByName united

/-- A column that turned from text to a number keeps the new column `note` out
of the lake and `amount` at the old width. -/
theorem one_bad_column_blocks_the_others :
    ¬ PerColumn
      [{ name := "id", fieldType := .long, required := false },
        { name := "code", fieldType := .string, required := false },
        { name := "amount", fieldType := .integer, required := false }]
      [{ name := "id", fieldType := .long, required := false },
        { name := "code", fieldType := .integer, required := false },
        { name := "amount", fieldType := .long, required := false },
        { name := "note", fieldType := .string, required := false }]
      (evolveTableSchema (fun field => field.required) false []
        [{ name := "id", fieldType := .long, required := false },
          { name := "code", fieldType := .string, required := false },
          { name := "amount", fieldType := .integer, required := false }]
        [{ name := "id", fieldType := .long, required := false },
          { name := "code", fieldType := .integer, required := false },
          { name := "amount", fieldType := .long, required := false },
          { name := "note", fieldType := .string, required := false }]) := by
  intro right
  exact absurd (right "note") (by decide)

theorem isSome_findField (schema : List SchemaField) (name : String) :
    (findField schema name).isSome = decide (name ∈ schema.map (fun field => field.name)) := by
  rw [findField, Bool.eq_iff_iff, List.find?_isSome, decide_eq_true_eq, List.mem_map]
  simp only [beq_iff_eq]

theorem isNone_findField (schema : List SchemaField) (name : String) :
    (findField schema name).isNone = decide (name ∉ schema.map (fun field => field.name)) := by
  rw [← Option.not_isSome, isSome_findField, decide_not]

/-- The columns after the union, refused or not. -/
theorem names_unionByName (addRefused : SchemaField -> Bool) (lake source : List SchemaField) :
    ((unionByName addRefused lake source).getD lake).map (fun field => field.name) =
      if (!unionRefused addRefused lake source) = true then
        lake.map (fun field => field.name) ++ (source.map (fun field => field.name)).filter
          (fun name => decide (name ∉ lake.map (fun field => field.name)))
      else lake.map (fun field => field.name) := by
  unfold unionByName
  cases unionRefused addRefused lake source with
  | true => rfl
  | false =>
      have sameNames : (fun field : SchemaField => field.name) ∘ unionField source = fun field => field.name :=
        funext (name_unionField source)
      simp only [Bool.false_eq_true, if_false, Bool.not_false, if_true, Option.getD_some, List.map_append,
        List.map_map, sameNames, isNone_findField, List.filter_map]
      rfl

/-- The columns of the evolved table are those of the model that looks at names
only, with the union refused or not. -/
theorem names_evolveTableSchema (addRefused : SchemaField -> Bool) (dropRemoved : Bool)
    (protectedColumns : List String) {ρ : Type} (table : IcebergWriter.LakeTable ρ)
    (lake source : List SchemaField) (names : table.schema = lake.map (fun field => field.name)) :
    (IcebergWriter.evolveTableSchema (source.map (fun field => field.name)) protectedColumns
        (!unionRefused addRefused lake source) dropRemoved table).schema =
      (evolveTableSchema addRefused dropRemoved
        (protectedColumns ++ table.spec.map (fun field => field.source)) lake source).map
          (fun field => field.name) := by
  have united := names_unionByName addRefused lake source
  rw [IcebergWriter.evolveTableSchema, evolveTableSchema, names]
  cases dropRemoved with
  | false => exact united.symm
  | true =>
      simp only [if_true]
      rw [← united, List.filter_map]
      apply congrArg (fun fields => List.map (fun field : SchemaField => field.name) fields)
      apply List.filter_congr
      intro field _
      rw [isSome_findField, Function.comp_apply, Bool.decide_or]

end SchemaEvolution
end WarehouseSync

import WarehouseSync.Load.SchemaEvolution
import Mathlib.Data.List.Nodup
import Mathlib.Data.List.Infix

namespace WarehouseSync
namespace SchemaHistory

open DataTypes SchemaEvolution

/-!
# The schema of a lake table over time (`load/iceberg_writer.py`)

Every incremental tick and every bootstrap evolves the schema of the lake table
towards that of its source, which may change in any way in between.  Files that
were written under an earlier schema are never rewritten, so a later schema must
still be able to read them: it keeps every column, and promotes types only.
-/

/-- The values of the old type are values of the new one.  Promotions of decimals
compose as well, so this relation is transitive and can be followed through a
history. -/
def Widens (old new : IcebergType) : Prop :=
  old = new ∨ isPromotion old new = true

theorem Widens.refl (type : IcebergType) : Widens type type :=
  Or.inl rfl

/-- Only decimals are promoted more than once. -/
theorem isPromotion_trans {first second third : IcebergType} (once : isPromotion first second = true)
    (again : isPromotion second third = true) : isPromotion first third = true := by
  cases first with
  | decimal precision scale =>
      cases second with
      | decimal middle kept =>
          cases third with
          | decimal last final =>
              simp only [isPromotion, Bool.and_eq_true, decide_eq_true_eq] at once again ⊢
              exact ⟨once.1.trans again.1, once.2.trans again.2⟩
          | _ => cases again
      | _ => cases once
  | integer =>
      cases second with
      | long => cases again
      | _ => cases once
  | float =>
      cases second with
      | double => cases again
      | _ => cases once
  | _ => cases once

theorem Widens.trans {first second third : IcebergType} (once : Widens first second)
    (again : Widens second third) : Widens first third := by
  rcases once with rfl | promoted
  · exact again
  · rcases again with rfl | further
    · exact Or.inr promoted
    · exact Or.inr (isPromotion_trans promoted further)

/-- What may become of a column: a wider type, and NULLs where there were none.  A
column that is required may come to allow NULLs, never the other way round. -/
structure FieldWidens (old new : SchemaField) : Prop where
  fieldType : Widens old.fieldType new.fieldType
  required : new.required = true -> old.required = true

/-- Files of the earlier schema can be read with the later one: its columns come
first, in the same order.  It is a preorder, which is what carries it from one
evolution to a history of them. -/
structure Extends (earlier later : List SchemaField) : Prop where
  names : earlier.map (fun field => field.name) <+: later.map (fun field => field.name)
  fields : forall {name : String} {old : SchemaField}, findField earlier name = some old ->
    Exists fun new : SchemaField => findField later name = some new ∧ FieldWidens old new

theorem Extends.refl (schema : List SchemaField) : Extends schema schema where
  names := List.prefix_refl _
  fields := fun found => ⟨_, found, Widens.refl _, fun required => required⟩

theorem Extends.trans {first second third : List SchemaField} (once : Extends first second)
    (again : Extends second third) : Extends first third where
  names := once.names.trans again.names
  fields := by
    intro name old found
    rcases once.fields found with ⟨middle, later, widened⟩
    rcases again.fields later with ⟨new, last, further⟩
    refine ⟨new, last, widened.fieldType.trans further.fieldType, ?_⟩
    exact fun required => widened.required (further.required required)

/-- The schema has every column of the source, with room for its values.  It says
nothing about further columns of the lake: those that the source has dropped stay.
-/
def Covers (schema source : List SchemaField) : Prop :=
  forall (name : String) (type : IcebergType), typeOf source name = some type ->
    Exists fun wide : IcebergType => typeOf schema name = some wide ∧ Widens type wide

theorem Covers.mono {earlier later source : List SchemaField} (covered : Covers earlier source)
    (extended : Extends earlier later) : Covers later source := by
  intro name type inSource
  rcases covered name type inSource with ⟨wide, present, widened⟩
  rcases Option.map_eq_some_iff.mp present with ⟨old, found, rfl⟩
  rcases extended.fields found with ⟨new, later, further⟩
  exact ⟨new.fieldType, congrArg (Option.map SchemaField.fieldType) later, widened.trans further.fieldType⟩

section Evolution

variable (addRefused : SchemaField -> Bool)

def union (lake source : List SchemaField) : List SchemaField :=
  lake.map (unionField source) ++ source.filter (fun field => (findField lake field.name).isNone)

theorem unionByName_eq (lake source : List SchemaField) : unionByName addRefused lake source =
    if unionRefused addRefused lake source = true then none else some (union lake source) :=
  rfl

variable {addRefused}

theorem accepts_of_not_refused {lake source : List SchemaField}
    (accepted : unionRefused addRefused lake source = false)
    {field : SchemaField} (member : field ∈ source) : changeRefused addRefused lake field = false := by
  have none := List.any_eq_false.mp accepted field member
  simpa using none

theorem findField_union_of_some {lake : List SchemaField} {name : String} {old : SchemaField}
    (found : findField lake name = some old) (source : List SchemaField) :
    findField (union lake source) name = some (unionField source old) := by
  unfold union
  rw [findField_append, findField_map (name_unionField source), found]
  rfl

theorem findField_union_of_none {lake : List SchemaField} {name : String} (lacks : findField lake name = none)
    (source : List SchemaField) : findField (union lake source) name = findField source name := by
  unfold union
  rw [findField_append, findField_map (name_unionField source), lacks, findField_added source lacks]
  rfl

/-- A change of type that is not refused is a promotion. -/
theorem widens_of_accepted {lake source : List SchemaField} (accepted : unionRefused addRefused lake source = false)
    {name : String} {old new : SchemaField} (inLake : findField lake name = some old)
    (inSource : findField source name = some new) : Widens old.fieldType new.fieldType := by
  have fine := accepts_of_not_refused accepted (List.mem_of_find?_eq_some inSource)
  simp only [changeRefused, name_of_findField inSource, inLake] at fine
  by_cases same : old.fieldType = new.fieldType
  · exact Or.inl same
  · right
    simpa [same] using fine

theorem fieldWidens_unionField {lake source : List SchemaField}
    (accepted : unionRefused addRefused lake source = false) {name : String} {old : SchemaField}
    (inLake : findField lake name = some old) : FieldWidens old (unionField source old) := by
  unfold unionField
  rw [name_of_findField inLake]
  cases inSource : findField source name with
  | none => exact ⟨Widens.refl _, fun required => required⟩
  | some new =>
      have wider := widens_of_accepted accepted inLake inSource
      exact ⟨wider, fun required => (Bool.and_eq_true_iff.mp required).1⟩

theorem extends_union {lake source : List SchemaField} (accepted : unionRefused addRefused lake source = false) :
    Extends lake (union lake source) where
  names := by
    have sameNames : (lake.map (unionField source)).map (fun field => field.name) =
        lake.map (fun field => field.name) := by
      rw [List.map_map]
      exact List.map_congr_left (fun field _ => name_unionField source field)
    unfold union
    rw [List.map_append, sameNames]
    exact List.prefix_append _ _
  fields := fun found => ⟨_, findField_union_of_some found source, fieldWidens_unionField accepted found⟩

theorem covers_union {lake source : List SchemaField} : Covers (union lake source) source := by
  intro name type inSource
  rcases Option.map_eq_some_iff.mp inSource with ⟨new, listed, rfl⟩
  cases inLake : findField lake name with
  | none =>
      have added := (findField_union_of_none inLake source).trans listed
      exact ⟨new.fieldType, congrArg (Option.map SchemaField.fieldType) added, Widens.refl _⟩
  | some old =>
      have renewed : (unionField source old).fieldType = new.fieldType := by
        unfold unionField
        rw [name_of_findField inLake, listed]
      have united := congrArg (Option.map SchemaField.fieldType) (findField_union_of_some inLake source)
      exact ⟨new.fieldType, united.trans (congrArg some renewed), Widens.refl _⟩

/-! ## A history of evolutions -/

variable (addRefused)

/-- The schema after runs that see these schemas of the source.  Removed columns are
kept in them, which is the default of the setting. -/
def evolveAll (lake : List SchemaField) (history : List (List SchemaField)) : List SchemaField :=
  history.foldl (evolveTableSchema addRefused false []) lake

variable {addRefused}

theorem evolve_eq (lake source : List SchemaField) : evolveTableSchema addRefused false [] lake source =
    if unionRefused addRefused lake source = true then lake else union lake source := by
  unfold evolveTableSchema
  rw [unionByName_eq]
  split
  · rfl
  · rfl

theorem extends_evolve (lake source : List SchemaField) :
    Extends lake (evolveTableSchema addRefused false [] lake source) := by
  rw [evolve_eq]
  split
  · exact Extends.refl lake
  · rename_i accepted
    exact extends_union (Bool.eq_false_iff.mpr accepted)

theorem extends_evolveAll (lake : List SchemaField) (history : List (List SchemaField)) :
    Extends lake (evolveAll addRefused lake history) := by
  induction history generalizing lake with
  | nil => exact Extends.refl lake
  | cons source history ih => exact (extends_evolve lake source).trans (ih _)

/-- However the source changes, the lake never loses a column and never narrows one,
and it keeps covering every schema of the source that it has once taken over.  A
union that is refused does no harm to what the lake has already. -/
theorem schema_only_widens (addRefused : SchemaField -> Bool) (lake : List SchemaField)
    (before : List (List SchemaField)) (source : List SchemaField) (after : List (List SchemaField)) :
    Extends (evolveAll addRefused lake before) (evolveAll addRefused lake (before ++ source :: after)) ∧
      (unionRefused addRefused (evolveAll addRefused lake before) source = false ->
        Covers (evolveAll addRefused lake (before ++ source :: after)) source) := by
  have split : evolveAll addRefused lake (before ++ source :: after) =
      evolveAll addRefused (evolveTableSchema addRefused false []
        (evolveAll addRefused lake before) source) after := by
    unfold evolveAll
    rw [List.foldl_append, List.foldl_cons]
  rw [split]
  constructor
  · exact (extends_evolve _ source).trans (extends_evolveAll _ after)
  · intro accepted
    refine Covers.mono ?_ (extends_evolveAll _ after)
    rw [evolve_eq, accepted, if_neg Bool.false_ne_true]
    exact covers_union

theorem findField_of_mem {schema : List SchemaField} (distinct : (schema.map (fun field => field.name)).Nodup)
    {field : SchemaField} (member : field ∈ schema) : findField schema field.name = some field := by
  cases found : findField schema field.name with
  | none => exact absurd (beq_self_eq_true field.name) (List.find?_eq_none.mp found field member)
  | some other =>
      have sameName := name_of_findField found
      exact congrArg some (List.inj_on_of_nodup_map distinct (List.mem_of_find?_eq_some found) member sameName)

theorem findField_filter {schema : List SchemaField} {keep : SchemaField -> Bool} {name : String}
    (kept : forall field : SchemaField, field.name = name -> keep field = true) :
    findField (schema.filter keep) name = findField schema name := by
  unfold findField
  rw [List.find?_filter]
  apply congrArg (fun test => schema.find? test)
  funext field
  by_cases same : field.name = name
  · simp [same, kept field same]
  · simp [same]

theorem unionField_again (source : List SchemaField) (old : SchemaField) :
    unionField source (unionField source old) = unionField source old := by
  cases listed : findField source old.name with
  | none =>
      have untouched : unionField source old = old := by
        unfold unionField
        rw [listed]
      rw [untouched, untouched]
  | some new =>
      unfold unionField
      simp only [listed, Bool.and_assoc, Bool.and_self]

theorem unionField_of_mem {source : List SchemaField} (distinct : (source.map (fun field => field.name)).Nodup)
    {field : SchemaField} (member : field ∈ source) : unionField source field = field := by
  unfold unionField
  rw [findField_of_mem distinct member]
  simp only [Bool.and_self]

theorem unionField_of_mem_union {lake source : List SchemaField}
    (distinct : (source.map (fun field => field.name)).Nodup) {field : SchemaField}
    (member : field ∈ union lake source) : unionField source field = field := by
  rcases List.mem_append.mp member with old | added
  · rcases List.mem_map.mp old with ⟨before, _, rfl⟩
    exact unionField_again source before
  · exact unionField_of_mem distinct (List.mem_filter.mp added).1

/-- The union has the types of the source. -/
theorem findField_union_of_mem (lake : List SchemaField) {source : List SchemaField}
    (distinct : (source.map (fun field => field.name)).Nodup) {field : SchemaField} (member : field ∈ source) :
    Exists fun united : SchemaField => findField (union lake source) field.name = some united ∧
      united.fieldType = field.fieldType := by
  have listed := findField_of_mem distinct member
  cases inLake : findField lake field.name with
  | none => exact ⟨field, (findField_union_of_none inLake source).trans listed, rfl⟩
  | some old =>
      refine ⟨unionField source old, findField_union_of_some inLake source, ?_⟩
      unfold unionField
      rw [name_of_findField inLake, listed]

theorem unionRefused_congr {schema lake source : List SchemaField}
    (same : forall field, field ∈ source -> findField schema field.name = findField lake field.name) :
    unionRefused addRefused schema source = unionRefused addRefused lake source := by
  unfold unionRefused
  rw [Bool.eq_iff_iff, List.any_eq_true, List.any_eq_true]
  refine exists_congr (fun field => and_congr_right (fun member => ?_))
  unfold changeRefused
  rw [same field member]

theorem union_accepts_again {lake source : List SchemaField}
    (distinct : (source.map (fun field => field.name)).Nodup) :
    unionRefused addRefused (union lake source) source = false := by
  refine List.any_eq_false.mpr (fun field member => ?_)
  rcases findField_union_of_mem lake distinct member with ⟨united, found, sameType⟩
  simp [changeRefused, found, sameType]

/-- The union with the same source, of whatever is kept of the first one. -/
theorem union_filter (lake : List SchemaField) {source : List SchemaField}
    (distinct : (source.map (fun field => field.name)).Nodup)
    {keep : SchemaField -> Bool}
    (kept : forall field : SchemaField, (findField source field.name).isSome = true -> keep field = true) :
    union ((union lake source).filter keep) source = (union lake source).filter keep := by
  have settled : ((union lake source).filter keep).map (unionField source) = (union lake source).filter keep := by
    apply (List.map_congr_left _).trans (List.map_id _)
    exact fun field member => unionField_of_mem_union distinct (List.mem_filter.mp member).1
  have nothing : source.filter (fun field =>
      (findField ((union lake source).filter keep) field.name).isNone) = [] := by
    refine List.filter_eq_nil_iff.mpr (fun field member => ?_)
    have listed := findField_of_mem distinct member
    have found : findField ((union lake source).filter keep) field.name =
      findField (union lake source) field.name := by
      apply findField_filter
      intro other sameName
      refine kept other ?_
      rw [sameName, listed]
      rfl
    rcases findField_union_of_mem lake distinct member with ⟨united, present, _⟩
    rw [found, present]
    exact Bool.false_ne_true
  unfold union at settled nothing ⊢
  rw [settled, nothing, List.append_nil]

theorem union_step_again (addRefused : SchemaField -> Bool) (lake : List SchemaField) {source : List SchemaField}
    (distinct : (source.map (fun field => field.name)).Nodup)
    {keep : SchemaField -> Bool}
    (kept : forall field : SchemaField, (findField source field.name).isSome = true -> keep field = true) :
    let evolved := ((unionByName addRefused lake source).getD lake).filter keep
    (unionByName addRefused evolved source).getD evolved = evolved := by
  intro evolved
  have same (field : SchemaField) (member : field ∈ source) :
      findField evolved field.name = findField ((unionByName addRefused lake source).getD lake) field.name := by
    apply findField_filter
    intro other sameName
    refine kept other ?_
    rw [sameName, findField_of_mem distinct member]
    rfl
  have decided : unionRefused addRefused evolved source =
      unionRefused addRefused ((unionByName addRefused lake source).getD lake) source := unionRefused_congr same
  rw [unionByName_eq, decided]
  cases refused : unionRefused addRefused lake source with
  | true =>
      have skipped : unionByName addRefused lake source = none := if_pos refused
      rw [skipped, Option.getD_none, refused, if_pos rfl]
      rfl
  | false =>
      have united : unionByName addRefused lake source = some (union lake source) := if_neg (by simp [refused])
      rw [united, Option.getD_some, union_accepts_again distinct, if_neg Bool.false_ne_true, Option.getD_some]
      have again := union_filter lake distinct kept
      simpa only [evolved, united, Option.getD_some] using again

/-- The next run over an unchanged source leaves the schema as the last run has left
it, also when that run skipped the union or dropped columns.  So repeating a run
does no more to the schema than the first. -/
theorem evolve_idempotent (addRefused : SchemaField -> Bool) (dropRemoved : Bool) (kept : List String)
    (lake source : List SchemaField) (distinct : (source.map (fun field => field.name)).Nodup) :
    evolveTableSchema addRefused dropRemoved kept (evolveTableSchema addRefused dropRemoved kept lake source) source =
      evolveTableSchema addRefused dropRemoved kept lake source := by
  cases dropRemoved with
  | false =>
      have everything : ((unionByName addRefused lake source).getD lake).filter (fun _ => true) =
          (unionByName addRefused lake source).getD lake := List.filter_eq_self.mpr (fun _ _ => rfl)
      have again := union_step_again addRefused lake distinct (fun _ : SchemaField => fun _ => rfl)
      rw [everything] at again
      exact again
  | true =>
      have listed (field : SchemaField) (inSource : (findField source field.name).isSome = true) :
          ((findField source field.name).isSome || decide (field.name ∈ kept)) = true := by
        rw [inSource, Bool.true_or]
      have again : (unionByName addRefused (evolveTableSchema addRefused true kept lake source) source).getD
          (evolveTableSchema addRefused true kept lake source) = evolveTableSchema addRefused true kept lake source :=
        union_step_again addRefused lake distinct listed
      have dropped (schema : List SchemaField) : evolveTableSchema addRefused true kept schema source =
          ((unionByName addRefused schema source).getD schema).filter (fun field =>
            (findField source field.name).isSome || decide (field.name ∈ kept)) := rfl
      rw [dropped (evolveTableSchema addRefused true kept lake source), again, dropped lake, List.filter_filter]
      simp only [Bool.and_self]

def ordersLake : List SchemaField :=
  [{ name := "id", fieldType := .long, required := true },
    { name := "amount", fieldType := .decimal 10 2, required := false },
    { name := "coupon", fieldType := .string, required := false }]

def ordersSource : List SchemaField :=
  [{ name := "id", fieldType := .long, required := false },
    { name := "amount", fieldType := .decimal 18 2, required := false },
    { name := "note", fieldType := .string, required := false }]

/-- Here the first run widens a column, adds one and drops one. -/
theorem orders_evolve_once :
    evolveTableSchema (fun field => field.required) true ["id"]
        (evolveTableSchema (fun field => field.required) true ["id"] ordersLake ordersSource) ordersSource =
      evolveTableSchema (fun field => field.required) true ["id"] ordersLake ordersSource :=
  evolve_idempotent _ true ["id"] ordersLake ordersSource (by decide)

end Evolution

end SchemaHistory
end WarehouseSync

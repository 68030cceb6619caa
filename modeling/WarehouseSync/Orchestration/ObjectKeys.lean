import WarehouseSync.Gateway.ConfigStore
import WarehouseSync.Orchestration.Tables

namespace WarehouseSync
namespace ObjectKeys

open Chunks ConfigStore JoinedNames Schema Tables

/-!
# The keys of a source object

An object of the source is a pair of identifiers.  The lake table, the watermark,
the selection and the chunk state are keyed by texts that join the two with `__`
or with a dot.  A quoted identifier may contain either, and nothing is escaped.
-/

/-- An identifier of PostgreSQL: not empty, without the character of code 0, and at
most 63 bytes long.  Dots and underscores are allowed anywhere in it, as in a quoted
name. -/
structure Identifier where
  text : String
  nonempty : text ≠ ""
  noNul : Char.ofNat 0 ∉ text.toList
  fits : text.utf8ByteSize ≤ 63
deriving DecidableEq, Repr

structure SourceObject where
  schema : Identifier
  name : Identifier
deriving DecidableEq, Repr

/-- What discovery makes of the object with these columns. -/
def SourceObject.config (object : SourceObject) (columns : List Column) : TableConfig :=
  configFromObject { schema := object.schema.text, name := object.name.text, columns := columns }

/-- The row of the object in `pipeline_sync_selection`. -/
def SourceObject.selectionRow (object : SourceObject) (connectionId : Int) (kind : String) (enabled : Bool) :
    SelectionRow :=
  { connectionId := connectionId, schema := object.schema.text, name := object.name.text, kind := kind
    enabled := enabled }

/-- What the object is filed under in each store.  Every store joins the two names
with a separator of its own, and none escapes it. -/
structure Keys where
  lakeTable : String
  watermark : Int × String
  selection : Int × String
  chunk : Nat -> String

def SourceObject.keys (object : SourceObject) (connectionId : Int) (columns : List Column) (kind : String)
    (enabled : Bool) : Keys :=
  let cfg := object.config columns
  { lakeTable := cfg.icebergTableName
    watermark := (connectionId, cfg.fqn)
    selection := (connectionId, (object.selectionRow connectionId kind enabled).fqn)
    chunk := chunkKey cfg.fqn }

/-- No key of one is a key of the other, in any store.  For chunks this is about
every pair of chunk ids, as the runs of the two plan their chunks separately. -/
structure Keys.Apart (first second : Keys) : Prop where
  lakeTable : first.lakeTable ≠ second.lakeTable
  watermark : first.watermark ≠ second.watermark
  selection : first.selection ≠ second.selection
  chunk : forall left right : Nat, first.chunk left ≠ second.chunk right

/-- The name of `first` and the schema of `second` share a separator: a dot or two
underscores lie in both, or one of the two underscores does.  Then the joined texts
are equal although the pairs are not. -/
def Overlap (first second : SourceObject) : Prop :=
  (Exists fun middle : String => second.schema.text = first.schema.text ++ "." ++ middle ∧
    first.name.text = middle ++ "." ++ second.name.text) ∨
  (Exists fun middle : String => second.schema.text = first.schema.text ++ "__" ++ middle ∧
    first.name.text = middle ++ "__" ++ second.name.text) ∨
  (second.schema.text = first.schema.text ++ "_" ∧ first.name.text = "_" ++ second.name.text)

def SourceObject.pair (object : SourceObject) : List Char × List Char :=
  (object.schema.text.toList, object.name.text.toList)

variable {first second : SourceObject} {connectionId : Int} {columns : List Column}

theorem Identifier.ext_text {left right : Identifier} (same : left.text = right.text) : left = right := by
  cases left
  cases right
  cases same
  rfl

theorem pair_injective (same : first.pair = second.pair) : first = second := by
  rcases first with ⟨schema, name⟩
  rcases second with ⟨otherSchema, otherName⟩
  rcases Prod.mk.inj same with ⟨sameSchema, sameName⟩
  have schemas : schema = otherSchema := Identifier.ext_text (String.toList_injective sameSchema)
  have names : name = otherName := Identifier.ext_text (String.toList_injective sameName)
  rw [schemas, names]

theorem fqn_eq_iff {otherColumns : List Column} :
    (first.config columns).fqn = (second.config otherColumns).fqn ↔
      joined ['.'] first.pair = joined ['.'] second.pair := by
  rw [← String.toList_inj]
  simp [SourceObject.config, configFromObject, TableConfig.fqn, SourceObject.pair, joined]

theorem icebergTableName_eq_iff {otherColumns : List Column} :
    (first.config columns).icebergTableName = (second.config otherColumns).icebergTableName ↔
      joined ['_', '_'] first.pair = joined ['_', '_'] second.pair := by
  rw [← String.toList_inj]
  simp [SourceObject.config, configFromObject, TableConfig.icebergTableName, SourceObject.pair, joined]

theorem contains_pair {separator : String} :
    Contains separator.toList first.pair second.pair ↔ Exists fun middle : String =>
      second.schema.text = first.schema.text ++ separator ++ middle ∧
        first.name.text = middle ++ separator ++ second.name.text := by
  constructor
  · rintro ⟨middle, longer, contained⟩
    refine ⟨String.ofList middle, String.toList_inj.mp ?_, String.toList_inj.mp ?_⟩
    · simpa [SourceObject.pair] using longer
    · simpa [SourceObject.pair] using contained
  · rintro ⟨middle, longer, contained⟩
    refine ⟨middle.toList, ?_, ?_⟩
    · simp [SourceObject.pair, longer]
    · simp [SourceObject.pair, contained]

/-- The overlaps are the ways in which either separator slides. -/
theorem overlap_iff :
    Overlap first second ↔ Slides ['.'] first.pair second.pair ∨ Slides ['_', '_'] first.pair second.pair := by
  have dot := @contains_pair first second "."
  have underscores := @contains_pair first second "__"
  have single : second.pair.1 = first.pair.1 ++ ['_'] ∧ first.pair.2 = '_' :: second.pair.2 ↔
      second.schema.text = first.schema.text ++ "_" ∧ first.name.text = "_" ++ second.name.text := by
    rw [← String.toList_inj, ← String.toList_inj]
    simp [SourceObject.pair]
  unfold Overlap
  rw [slides_singleton, slides_pair, single, ← dot, ← underscores]
  rfl

/-! ## Which objects share a key -/

/-- Two objects share no key in any store exactly if their names do not overlap in a
separator, in either order.  The condition is about the names alone, so it can be
checked when an object is discovered. -/
theorem keys_apart_iff {kind otherKind : String} {enabled otherEnabled : Bool} {otherColumns : List Column}
    (distinct : first ≠ second) :
    (first.keys connectionId columns kind enabled).Apart
        (second.keys connectionId otherColumns otherKind otherEnabled) ↔
      ¬ Overlap first second ∧ ¬ Overlap second first := by
  have different : first.pair ≠ second.pair := fun same => distinct (pair_injective same)
  have names : (first.config columns).fqn = (second.config otherColumns).fqn ↔
      Slides ['.'] first.pair second.pair ∨ Slides ['.'] second.pair first.pair := by
    rw [fqn_eq_iff, joined_eq_iff, or_iff_right different]
  have tables : (first.config columns).icebergTableName = (second.config otherColumns).icebergTableName ↔
      Slides ['_', '_'] first.pair second.pair ∨ Slides ['_', '_'] second.pair first.pair := by
    rw [icebergTableName_eq_iff, joined_eq_iff, or_iff_right different]
  have apart : (first.keys connectionId columns kind enabled).Apart
      (second.keys connectionId otherColumns otherKind otherEnabled) ↔
        (first.config columns).icebergTableName ≠ (second.config otherColumns).icebergTableName ∧
          (first.config columns).fqn ≠ (second.config otherColumns).fqn := by
    constructor
    · rintro ⟨lakeTable, watermark, _, _⟩
      exact ⟨lakeTable, fun same => watermark (Prod.ext rfl same)⟩
    · rintro ⟨lakeTable, fqn⟩
      refine ⟨lakeTable, fun same => fqn (Prod.mk.inj same).2, fun same => fqn (Prod.mk.inj same).2, ?_⟩
      exact fun left right same => fqn (chunkKey_eq_iff.mp same).1
  rw [apart, overlap_iff, overlap_iff, Ne, Ne, names, tables]
  constructor
  · intro ⟨tablesApart, namesApart⟩
    constructor
    · intro overlap
      cases overlap with
      | inl dots => exact namesApart (Or.inl dots)
      | inr underscores => exact tablesApart (Or.inl underscores)
    · intro overlap
      cases overlap with
      | inl dots => exact namesApart (Or.inr dots)
      | inr underscores => exact tablesApart (Or.inr underscores)
  · intro ⟨forwards, backwards⟩
    constructor
    · intro shared
      cases shared with
      | inl slides => exact forwards (Or.inr slides)
      | inr slides => exact backwards (Or.inr slides)
    · intro shared
      cases shared with
      | inl slides => exact forwards (Or.inl slides)
      | inr slides => exact backwards (Or.inl slides)

def salesEuOrders : SourceObject :=
  { schema := { text := "sales.eu", nonempty := by decide, noNul := by decide, fits := by decide }
    name := { text := "orders", nonempty := by decide, noNul := by decide, fits := by decide } }

def salesOrders : SourceObject :=
  { schema := { text := "sales", nonempty := by decide, noNul := by decide, fits := by decide }
    name := { text := "eu.orders", nonempty := by decide, noNul := by decide, fits := by decide } }

/-- The second watermark is the first one, and so are the chunks. -/
theorem dotted_names_share_watermark :
    salesEuOrders ≠ salesOrders ∧
      (salesEuOrders.keys 1 [] "TABLE" true).watermark = (1, "sales.eu.orders") ∧
      ¬ (salesEuOrders.keys 1 [] "TABLE" true).Apart (salesOrders.keys 1 [] "TABLE" true) := by
  refine ⟨by decide, by decide, fun apart => apart.watermark ?_⟩
  decide

/-- Two tables of one schema have no text in which a separator could slide. -/
theorem same_schema_apart :
    let users : SourceObject :=
      { schema := salesOrders.schema
        name := { text := "users", nonempty := by decide, noNul := by decide, fits := by decide } }
    (salesOrders.keys 1 [] "TABLE" true).Apart (users.keys 1 [] "VIEW" true) := by
  intro users
  have short {left right : SourceObject} (same : right.schema.text = left.schema.text) :
      ¬ Overlap left right := by
    unfold Overlap
    rw [same]
    rintro (⟨middle, longer, _⟩ | ⟨middle, longer, _⟩ | ⟨longer, _⟩)
    · simp [← String.toList_inj] at longer
    · simp [← String.toList_inj] at longer
    · simp [← String.toList_inj] at longer
  exact (keys_apart_iff (by decide)).mpr ⟨short rfl, short rfl⟩

end ObjectKeys
end WarehouseSync

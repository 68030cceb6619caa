import WarehouseSync.Extract.Discovery
import WarehouseSync.Gateway.StoredSecrets
import WarehouseSync.Library.JoinedNames

namespace WarehouseSync
namespace SavedSelection

open ConfigStore Discovery KeyedRows Tables

/-!
# The saved selection (`orchestration/tables.py`)

`set_selection` replaces the rows of a connection, and `get_tables` configures the
objects that discovery then finds.  A row selects by the text of its schema and
name.  A connection without rows has no selection, and its own filters decide.
-/

/-- What `set_selection` is given for an object.  A kind or a flag that is left out
has its default, so an item that only names an object selects it. -/
structure Item where
  schema : String
  name : String
  kind : Option String
  enabled : Option Bool
deriving DecidableEq, Repr

def Item.isEnabled (item : Item) : Bool :=
  item.enabled.getD true

def Item.row (connectionId : Int) (item : Item) : SelectionRow :=
  { connectionId := connectionId, schema := item.schema, name := item.name, kind := item.kind.getD "TABLE"
    enabled := item.isEnabled }

def setSelection (store : Store) (connectionId : Int) (items : List Item) : Option Store :=
  store.setSelection connectionId (items.map (Item.row connectionId))

/-- A configuration together with the kind of the object, which the gateway shows
beside it. -/
structure Configured extends TableConfig where
  kind : Kind
deriving DecidableEq, Repr

def configFromObject (object : Discovered) : Configured :=
  { toTableConfig := Tables.configFromObject object.toDiscoveredObject, kind := object.kind }

/-- The configurations of a connection, with the time they were made.  It belongs to
one process, and nothing but time or a forced read makes an entry of it go. -/
abbrev Cache :=
  Int -> Option (Nat × List Configured)

/-- In milliseconds. -/
def discoveryTtl : Nat :=
  300000

def Cache.valid (cache : Cache) (connectionId : Int) (now : Nat) : Option (List Configured) :=
  (cache connectionId).bind (fun entry => if now - entry.1 < discoveryTtl then some entry.2 else none)

/-- A selection is authoritative: the globs of the connection are left out.  The
blacklist of schemas stays in force, as it is not a glob of the connection. -/
def discoveryConfig (conn : Connection) (selected : Option (List String)) : Connection :=
  if selected.isSome then { conn with syncInclude := "", syncExclude := "" } else conn

/-- `get_tables`: the cached configurations while they are valid, or a new
discovery.  The selection is read together with the objects, so a cached list may be
from before the selection was saved. -/
def getTables (store : Store) (source : Source) (cache : Cache) (now : Nat) (conn : Connection) (force : Bool) :
    List Configured × Cache :=
  match if force = true then none else cache.valid conn.id now with
  | some configs => (configs, cache)
  | none =>
      let selected := store.enabledFqns conn.id
      let objects := discover source (discoveryConfig conn selected) selected
      let configs := objects.map configFromObject
      (configs, Function.update cache conn.id (some (now, configs)))

def Configured.names (config : Configured) : Option (String × String) :=
  some (config.schema, config.table)

/-- Exactly one configuration has the names of the object, and it is made from it.
Two of them would sync the object twice into one lake table. -/
def ConfiguredOnce (configs : List Configured) (object : Discovered) : Prop :=
  rowsAt Configured.names (some (object.schema, object.name)) configs = [configFromObject object]

/-- What must be synced is configured once, and only what may be synced is
configured.  The two bounds differ where the text of an object is also that of
another one. -/
structure Syncs (source : Source) (configs : List Configured) (must may : Discovered -> Prop) : Prop where
  once : forall object, object ∈ source.objects -> must object -> ConfiguredOnce configs object
  only : forall config, config ∈ configs -> Exists fun object : Discovered => object ∈ source.objects ∧
    may object ∧ config = configFromObject object

/-- An enabled item has the names of the object. -/
def Enabled (items : List Item) (object : Discovered) : Prop :=
  Exists fun item : Item => item ∈ items ∧ item.isEnabled = true ∧ item.schema = object.schema ∧
    item.name = object.name

/-- An enabled item has the same text as the object.  The stored selection is looked
up by this text, in which the dot of a name cannot be told from the one between the
names. -/
def TextEnabled (items : List Item) (object : Discovered) : Prop :=
  Exists fun item : Item => item ∈ items ∧ item.isEnabled = true ∧
    fqnOf item.schema item.name = fqnOf object.schema object.name

/-- The object types and the globs of the connection admit the object. -/
def Admitted (conn : Connection) (object : Discovered) : Prop :=
  keeps conn none object.schema object.name object.kind = true

/-- The enabled items are synced, and nothing else. -/
def SelectionDecides (source : Source) (conn : Connection) (items : List Item) (configs : List Configured) : Prop :=
  Syncs source configs
    (fun object => object.schema ∉ syncSchemaBlacklistSet conn ∧ Enabled items object)
    (fun object => object.schema ∉ syncSchemaBlacklistSet conn ∧ Enabled items object)

/-! ## What is found in the store -/

variable {store after : Store} {source : Source} {cache : Cache} {now : Nat} {conn : Connection} {items : List Item}

theorem getSelection_setSelection {connectionId : Int} (saved : setSelection store connectionId items = some after) :
    after.getSelection connectionId = items.map (Item.row connectionId) := by
  rw [Store.setSelection_eq_some saved]
  unfold Store.getSelection
  have others : (store.selection.filter (fun row => decide (row.connectionId ≠ connectionId))).filter
      (fun row => decide (row.connectionId = connectionId)) = [] := by
    rw [List.filter_eq_nil_iff]
    intro row member same
    exact of_decide_eq_true (List.mem_filter.mp member).2 (of_decide_eq_true same)
  have own : (items.map (Item.row connectionId)).map (fun row => { row with connectionId := connectionId }) =
      items.map (Item.row connectionId) := by
    rw [List.map_map]
    rfl
  rw [own, List.filter_append, others, List.nil_append, List.filter_eq_self]
  intro row member
  rcases List.mem_map.mp member with ⟨item, _, rfl⟩
  exact decide_eq_true rfl

/-- The texts of the enabled items, unless there is no item. -/
theorem enabledFqns_setSelection {connectionId : Int} (saved : setSelection store connectionId items = some after) :
    after.enabledFqns connectionId = if items = [] then none else
      some ((items.filter Item.isEnabled).map (fun item => fqnOf item.schema item.name)) := by
  unfold Store.enabledFqns
  rw [getSelection_setSelection saved]
  cases items with
  | nil => rfl
  | cons item rest =>
      rw [if_neg (List.cons_ne_nil item rest)]
      change some ((((item :: rest).map (Item.row connectionId)).filter (fun row => row.enabled)).map
        (fun row => row.fqn)) = _
      rw [List.filter_map, List.map_map]
      rfl

theorem visible_discoveryConfig (selected : Option (List String)) (object : Discovered) :
    Visible (discoveryConfig conn selected) object ↔ Visible conn object := by
  unfold discoveryConfig
  split <;> rfl

/-- Only the globs are replaced, and only where they are not looked at. -/
theorem keeps_discoveryConfig (selected : Option (List String)) (schema name : String) (kind : Kind) :
    keeps (discoveryConfig conn selected) selected schema name kind = keeps conn selected schema name kind := by
  cases selected <;> rfl

/-- What a forced call configures. -/
theorem getTables_force (store : Store) (source : Source) (cache : Cache) (now : Nat) (conn : Connection) :
    (getTables store source cache now conn true).1 =
      (source.objects.filter (fun object => decide (Visible conn object) &&
        keeps conn (store.enabledFqns conn.id) object.schema object.name object.kind)).map configFromObject := by
  change (discover source (discoveryConfig conn (store.enabledFqns conn.id)) (store.enabledFqns conn.id)).map
    configFromObject = _
  rw [discover_eq]
  simp only [visible_discoveryConfig, keeps_discoveryConfig]

theorem names_configFromObject (object : Discovered) : (configFromObject object).names = object.names := rfl

theorem syncs_of_filter {must may : Discovered -> Prop} {keep : Discovered -> Bool}
    (kept : forall object, must object -> keep object = true)
    (allowed : forall object, keep object = true -> may object) :
    Syncs source ((source.objects.filter keep).map configFromObject) must may := by
  constructor
  · intro object member demanded
    have unique := (unique_objects source).sublist (@List.filter_sublist _ keep source.objects)
    have listed := List.mem_filter.mpr ⟨member, kept object demanded⟩
    unfold ConfiguredOnce
    rw [rowsAt_map configFromObject names_configFromObject, unique.rowsAt_eq listed rfl]
    rfl
  · intro config member
    rcases List.mem_map.mp member with ⟨object, listed, rfl⟩
    rcases List.mem_filter.mp listed with ⟨present, passed⟩
    exact ⟨object, present, allowed object passed, rfl⟩

/-- Of the visible objects, a forced call configures those that pass. -/
theorem syncs_getTables {must may : Discovered -> Prop}
    (kept : forall object, must object ->
      keeps conn (store.enabledFqns conn.id) object.schema object.name object.kind = true)
    (allowed : forall object, keeps conn (store.enabledFqns conn.id) object.schema object.name object.kind = true ->
      may object) :
    Syncs source (getTables store source cache now conn true).1
      (fun object => Visible conn object ∧ must object) (fun object => Visible conn object ∧ may object) := by
  rw [getTables_force]
  apply syncs_of_filter
  · intro object demanded
    rw [Bool.and_eq_true]
    exact ⟨decide_eq_true demanded.1, kept object demanded.2⟩
  · intro object passed
    rw [Bool.and_eq_true] at passed
    exact ⟨of_decide_eq_true passed.1, allowed object passed.2⟩

theorem keeps_selected_iff {object : Discovered} : keeps conn
    (some ((items.filter Item.isEnabled).map (fun item => fqnOf item.schema item.name)))
      object.schema object.name object.kind = true ↔ TextEnabled items object := by
  unfold keeps TextEnabled
  simp [and_assoc]

theorem Enabled.text {object : Discovered} (enabled : Enabled items object) : TextEnabled items object := by
  rcases enabled with ⟨item, member, isEnabled, schema, name⟩
  exact ⟨item, member, isEnabled, by rw [schema, name]⟩

theorem syncs_selected (saved : setSelection store conn.id items = some after) (nonempty : items ≠ []) :
    Syncs source (getTables after source cache now conn true).1
      (fun object => Visible conn object ∧ Enabled items object)
      (fun object => Visible conn object ∧ TextEnabled items object) := by
  apply syncs_getTables
  · intro object enabled
    rw [enabledFqns_setSelection saved, if_neg nonempty]
    exact keeps_selected_iff.mpr enabled.text
  · intro object passed
    rw [enabledFqns_setSelection saved, if_neg nonempty] at passed
    exact keeps_selected_iff.mp passed

/-- After a selection is saved, each enabled object that is visible is configured
once, and only objects with the text of an enabled item are; after an empty
selection the filters of the connection decide.  An empty selection is stored as
none at all. -/
theorem get_tables_after_set_selection (source : Source) (cache : Cache) (now : Nat)
    (saved : setSelection store conn.id items = some after) :
    (items ≠ [] -> Syncs source (getTables after source cache now conn true).1
      (fun object => Visible conn object ∧ Enabled items object)
      (fun object => Visible conn object ∧ TextEnabled items object)) ∧
    (items = [] -> Syncs source (getTables after source cache now conn true).1
      (fun object => Visible conn object ∧ Admitted conn object)
      (fun object => Visible conn object ∧ Admitted conn object)) := by
  refine ⟨fun nonempty => syncs_selected saved nonempty, fun empty => ?_⟩
  apply syncs_getTables
  · intro object admitted
    rw [enabledFqns_setSelection saved, if_pos empty]
    exact admitted
  · intro object passed
    rw [enabledFqns_setSelection saved, if_pos empty] at passed
    exact passed

/-- Every column has its default except one glob. -/
def filtered : Connection :=
  { StoredSecrets.salesConnection with
    syncExclude := "public.*", syncObjectTypes := "TABLE,VIEW,MATERIALIZED_VIEW"
    syncSchemaBlacklist := "pg_catalog,information_schema,pg_toast" }

def salesStore : Store :=
  { StoredSecrets.salesState.store with connections := [filtered] }

/-- A sequence is no object to sync. -/
def salesSource : Source :=
  { relations := [
      { schema := "public", name := "order_id_seq", relkind := 'S', columns := [] },
      { schema := "public", name := "orders", relkind := 'r', columns := [⟨"id", "bigint"⟩, ⟨"updated_at", "date"⟩] },
      { schema := "public", name := "salaries", relkind := 'v', columns := [⟨"id", "bigint"⟩] }]
    unique := by decide }

/-- Orders are selected, and salaries are not. -/
def salesItems : List Item :=
  [⟨"public", "orders", none, none⟩, ⟨"public", "salaries", some "VIEW", some false⟩]

theorem sales_selection_is_synced :
    Syncs salesSource (getTables { salesStore with selection := salesItems.map (Item.row 1) } salesSource
        (fun _ => none) 0 filtered true).1
      (fun object => Visible filtered object ∧ Enabled salesItems object)
      (fun object => Visible filtered object ∧ TextEnabled salesItems object) :=
  (get_tables_after_set_selection salesSource (fun _ => none) 0
    (rfl : setSelection salesStore filtered.id salesItems = some _)).1 (List.cons_ne_nil _ _)

/-- Without the glob, the objects are synced after an empty list is saved. -/
theorem empty_selection_selects_all :
    setSelection salesStore 1 [] = some salesStore ∧
      Not (SelectionDecides salesSource { filtered with syncExclude := "" } []
        (getTables salesStore salesSource (fun _ => none) 0 { filtered with syncExclude := "" } true).1) := by
  refine ⟨rfl, fun decides => ?_⟩
  have synced : (getTables salesStore salesSource (fun _ => none) 0
      { filtered with syncExclude := "" } true).1 ≠ [] := by
    decide
  rcases List.exists_mem_of_ne_nil _ synced with ⟨config, member⟩
  rcases decides.only config member with ⟨object, _, ⟨_, item, listed, _⟩, _⟩
  cases listed

theorem TextEnabled.names {object : Discovered} (enabled : TextEnabled items object)
    (plainItems : forall item, item ∈ items -> '.' ∉ item.name.toList) (plain : '.' ∉ object.name.toList) :
    Enabled items object := by
  rcases enabled with ⟨item, member, isEnabled, same⟩
  have texts : JoinedNames.joined ['.'] (item.schema.toList, item.name.toList) =
      JoinedNames.joined ['.'] (object.schema.toList, object.name.toList) := by
    simpa [fqnOf, JoinedNames.joined] using congrArg String.toList same
  have parts := JoinedNames.joined_injective texts (plainItems item member) plain
  exact ⟨item, member, isEnabled, String.toList_injective parts.1, String.toList_injective parts.2⟩

/-- Where names have no dots and nothing enabled is temporary, a selection that is
not empty decides. -/
theorem selection_decides (saved : setSelection store conn.id items = some after) (nonempty : items ≠ [])
    (plainItems : forall item, item ∈ items -> '.' ∉ item.name.toList)
    (plain : forall object, object ∈ source.objects -> '.' ∉ object.name.toList)
    (lasting : forall object, object ∈ source.objects -> Enabled items object -> temporary object.schema = false) :
    SelectionDecides source conn items (getTables after source cache now conn true).1 := by
  have synced := @syncs_selected store after source cache now conn items saved nonempty
  constructor
  · intro object member demanded
    exact synced.once object member ⟨⟨demanded.1, lasting object member demanded.2⟩, demanded.2⟩
  · intro config member
    rcases synced.only config member with ⟨object, present, ⟨visible, enabled⟩, made⟩
    exact ⟨object, present, ⟨visible.1, enabled.names plainItems (plain object present)⟩, made⟩

end SavedSelection
end WarehouseSync

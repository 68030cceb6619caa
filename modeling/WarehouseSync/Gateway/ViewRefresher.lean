import WarehouseSync.Extract.Schema
import WarehouseSync.Gateway.ConfigStore
import WarehouseSync.Gateway.DuckDBPool
import Mathlib.Data.List.Forall2
import Mathlib.Data.List.TakeWhile

namespace WarehouseSync
namespace ViewRefresher

open ConfigStore Transition
open Schema (lower)

/-!
# The views of the query page (`gateway/view_refresher.py`)

A refresh asks the Iceberg catalog for the tables of every enabled connection,
then brings the views of each pooled DuckDB connection in line: one view for
each table it resolved, and none for any other name of the namespace.  A failed
catalog call is logged, and leaves a shorter list.

DuckDB finds schemas and views without regard to case, quoted or not, but lists
them as they were written when they were created, and the pruning step goes by
that list.  Two namespaces, or two tables of one, that differ in case alone are
two things for Iceberg and one for DuckDB.
-/

/-- A view as `information_schema.tables` lists it. -/
structure View where
  schema : String
  name : String
  location : String
deriving DecidableEq, Repr

/-- The in-memory database of a pooled connection.  Each of them has its own views,
so a refresh goes through all. -/
structure Database where
  schemas : List String
  views : List View
deriving DecidableEq, Repr

/-- The schema that a name finds, as it is written; a new one is written like the
name.  DuckDB ignores case when it looks a schema up, but lists it as it was
created. -/
def Database.spelling (db : Database) (ns : String) : String :=
  (db.schemas.find? (fun schema => lower schema == lower ns)).getD ns

/-- `CREATE SCHEMA IF NOT EXISTS`. -/
def Database.createSchema (db : Database) (ns : String) : Database :=
  if (db.schemas.find? (fun schema => lower schema == lower ns)).isSome then db
  else { db with schemas := db.schemas ++ [ns] }

/-- Both names of the views find the same one, so creating the one replaces the
other. -/
def View.clashes (view other : View) : Bool :=
  lower other.schema == lower view.schema && lower other.name == lower view.name

/-- `CREATE OR REPLACE VIEW`. -/
def createOrReplaceView (view : View) (views : List View) : List View :=
  views.filter (fun other => !view.clashes other) ++ [view]

/-- A pooled connection; the number tells it from the others of the pool. -/
structure DuckConn where
  number : Nat
  db : Database
deriving DecidableEq, Repr

/-- A call of `refresh_once`: the enabled connections, the tables that the catalog
holds, and what fails.  Each statement may fail on one pooled connection and not on
another, so what DuckDB does is asked for by the number of the pooled connection. -/
structure Call where
  conns : List Connection
  catalog : List CatalogTable
  /-- whether `list_tables` answers -/
  lists : Connection -> Bool
  /-- the metadata location, unless `load_table` fails -/
  loads : Connection -> String × String -> Option String
  /-- whether `register_connection_secret` and `CREATE SCHEMA` succeed -/
  opens : Nat -> Connection -> Bool
  /-- whether `CREATE VIEW` succeeds -/
  creates : Nat -> View -> Bool
  /-- whether the query for the existing views succeeds -/
  lookedUp : Nat -> Connection -> Bool
  /-- whether `DROP VIEW` succeeds -/
  drops : Nat -> View -> Bool

/-- `list_tables`, with an identifier for each table of the namespace. -/
def Call.listTables (call : Call) (conn : Connection) : Option (List (String × String)) :=
  if call.lists conn then
    some ((call.catalog.filter (fun table => table.namespaceName = conn.icebergNamespace)).map
      (fun table => (table.namespaceName, table.name)))
  else none

/-- `_resolve_tables`.  A listing that fails and a namespace without tables look the
same afterwards, and so do a table that cannot be loaded and one that is not there.
-/
def resolveTables (call : Call) (conn : Connection) : List (String × String) :=
  match call.listTables conn with
  | none => []
  | some idents => idents.filterMap (fun ident =>
      (call.loads conn ident).map (fun location => (ident.2, location)))

/-- A view that cannot be created is logged, and its name stays desired.  So an
older view of that name is not pruned. -/
def createViews (creates : View -> Bool) (schema : String) : List (String × String) -> List View -> List View
  | [], views => views
  | (name, location) :: tables, views =>
      createViews creates schema tables
        (if creates ⟨schema, name, location⟩ then createOrReplaceView ⟨schema, name, location⟩ views else views)

/-- The views listed under the namespace that are not desired.  The listing is
compared as it is written, unlike the names in statements. -/
def stale (ns : String) (desired : List String) (views : List View) : List View :=
  views.filter (fun view => view.schema == ns && !desired.contains view.name)

/-- Drop the stale views, up to the first that does not go.  They are named as they
are listed, so each statement drops just the view it is meant for. -/
def prune (drops : View -> Bool) (ns : String) (desired : List String) (views : List View) : List View :=
  views.filter (fun view => !((stale ns desired views).takeWhile drops).contains view)

/-- The body of the loop in `_apply`, for one connection and its tables, once its
secret is registered and its schema is there. -/
def applyOne (call : Call) (number : Nat) (conn : Connection) (tables : List (String × String))
    (db : Database) : Database :=
  let opened := db.createSchema conn.icebergNamespace
  let created := createViews (call.creates number) (opened.spelling conn.icebergNamespace) tables opened.views
  { opened with
    views :=
      if call.lookedUp number conn then
        prune (call.drops number) conn.icebergNamespace (tables.map Prod.fst) created
      else created }

/-- The loop of `_apply`, and whether it raised: only the statements on views are
guarded by a `try`.  Connections that come after the one that raised are left as
they were. -/
def applyAll (call : Call) (number : Nat) :
    List (Connection × List (String × String)) -> Database -> Database × Bool
  | [], db => (db, false)
  | (conn, tables) :: perConn, db =>
      if call.opens number conn then applyAll call number perConn (applyOne call number conn tables db)
      else (db, true)

/-- `_apply`. -/
def apply (call : Call) (perConn : List (Connection × List (String × String))) (dconn : DuckConn) :
    DuckConn × Bool :=
  ({ dconn with db := (applyAll call dconn.number perConn dconn.db).1 },
    (applyAll call dconn.number perConn dconn.db).2)

def Call.perConn (call : Call) : List (Connection × List (String × String)) :=
  call.conns.map (fun conn => (conn, resolveTables call conn))

def Call.total (call : Call) : Nat :=
  (call.perConn.map (fun resolved => resolved.2.length)).sum

/-- `refresh_once`, with the number of tables it returns.  The catalog is asked
once, and what it has said is applied to every pooled connection. -/
def refreshOnce (call : Call) (pool : List DuckConn) : List DuckConn × Nat :=
  (if call.total ≠ 0 ∨ call.conns ≠ [] then DuckDBPool.forEach (apply call call.perConn) pool.length pool
    else pool, call.total)

/-- A run of refreshes.  An exception in one is logged by the thread, which goes on.
What was applied before it stays. -/
def step (pool : List DuckConn) (call : Call) : Option (List DuckConn) :=
  some (refreshOnce call pool).1

/-- Among the views is one with that name in the namespace. -/
def Shows (views : List View) (ns name : String) : Prop :=
  Exists fun view : View => view ∈ views ∧ view.schema = ns ∧ view.name = name

def Call.HasTable (call : Call) (ns name : String) : Prop :=
  Exists fun table : CatalogTable => table ∈ call.catalog ∧ table.namespaceName = ns ∧ table.name = name

/-- No catalog call failed, so a table that is missing from the lists is not there.
-/
def Call.AllAnswered (call : Call) : Prop :=
  forall conn, conn ∈ call.conns -> call.lists conn = true ∧
    forall name, call.HasTable conn.icebergNamespace name ->
      (call.loads conn (conn.icebergNamespace, name)).isSome = true

/-- Views go only with their tables, and where the catalog answered they are its
tables.  The first part is for every refresh, and the second for those that know the
whole catalog. -/
structure Follows (call : Call) (before after : DuckConn) : Prop where
  kept : forall conn, conn ∈ call.conns -> forall name, Shows before.db.views conn.icebergNamespace name ->
    call.HasTable conn.icebergNamespace name -> Shows after.db.views conn.icebergNamespace name
  same : call.AllAnswered -> forall conn, conn ∈ call.conns -> forall name,
    (Shows after.db.views conn.icebergNamespace name ↔ call.HasTable conn.icebergNamespace name)

/-- The pool after a refresh, in the order it had before. -/
def refreshed (call : Call) (pool : List DuckConn) : List DuckConn :=
  (DuckDBPool.swept (apply call call.perConn) pool).1 ++ (DuckDBPool.swept (apply call call.perConn) pool).2

/-- Every pooled connection follows the catalog, each compared with itself before
the refresh. -/
def FollowsCatalog (pool : List DuckConn) (call : Call) : Prop :=
  List.Forall₂ (Follows call) pool (refreshed call pool)

/-- No two of the names that meet in DuckDB differ in case alone: the namespaces of
the enabled connections, the tables of each of them, and a namespace and a schema that
is already there. -/
structure Apart (call : Call) (dconn : DuckConn) : Prop where
  namespaces : (call.conns.map (fun conn => lower conn.icebergNamespace)).Nodup
  tables : forall conn, conn ∈ call.conns -> forall name other, call.HasTable conn.icebergNamespace name ->
    call.HasTable conn.icebergNamespace other -> lower name = lower other -> name = other
  spelled : forall conn, conn ∈ call.conns -> forall schema, schema ∈ dconn.db.schemas ->
    lower schema = lower conn.icebergNamespace -> schema = conn.icebergNamespace

/-- The catalog answered for every table that the pooled connection has a view of.
Where it answered for all of them, DuckDB took each secret and each schema, each table
has a view or got one, and no other view stayed because it could not be dropped. -/
structure Answered (call : Call) (dconn : DuckConn) : Prop where
  viewed : forall conn, conn ∈ call.conns -> forall name,
    call.HasTable conn.icebergNamespace name -> Shows dconn.db.views conn.icebergNamespace name ->
      call.lists conn = true ∧ (call.loads conn (conn.icebergNamespace, name)).isSome = true
  opened : call.AllAnswered -> forall conn, conn ∈ call.conns -> call.opens dconn.number conn = true
  created : call.AllAnswered -> forall conn, conn ∈ call.conns -> forall name,
    call.HasTable conn.icebergNamespace name -> Shows dconn.db.views conn.icebergNamespace name ∨
      forall location, call.loads conn (conn.icebergNamespace, name) = some location ->
        call.creates dconn.number ⟨conn.icebergNamespace, name, location⟩ = true
  dropped : call.AllAnswered -> forall conn, conn ∈ call.conns -> forall view, view ∈ dconn.db.views ->
    view.schema = conn.icebergNamespace -> ¬ call.HasTable conn.icebergNamespace view.name ->
      call.lookedUp dconn.number conn = true ∧ call.drops dconn.number view = true

/-- The condition on a refresh, which is one on the pool before it and on what fails
in it. -/
def CatalogAnswers (pool : List DuckConn) (call : Call) : Prop :=
  forall dconn, dconn ∈ pool -> Apart call dconn ∧ Answered call dconn

/-! ## The views of one namespace -/

variable {call : Call} {db other : Database} {views : List View} {ns name : String}

/-- The views listed under the namespace are the same in both. -/
def SameIn (ns : String) (db other : Database) : Prop :=
  forall view : View, view.schema = ns -> (view ∈ other.views ↔ view ∈ db.views)

theorem SameIn.trans {third : Database} (first : SameIn ns db other) (second : SameIn ns other third) :
    SameIn ns db third :=
  fun view listed => (second view listed).trans (first view listed)

theorem SameIn.shows (same : SameIn ns db other) : Shows other.views ns name ↔ Shows db.views ns name := by
  constructor
  · rintro ⟨view, member, listed, named⟩
    exact ⟨view, (same view listed).mp member, listed, named⟩
  · rintro ⟨view, member, listed, named⟩
    exact ⟨view, (same view listed).mpr member, listed, named⟩

/-- A schema that the namespace finds is written like it. -/
def Spelled (db : Database) (ns : String) : Prop :=
  forall schema, schema ∈ db.schemas -> lower schema = lower ns -> schema = ns

theorem lower_spelling (db : Database) (ns : String) : lower (db.spelling ns) = lower ns := by
  unfold Database.spelling
  cases found : db.schemas.find? (fun schema => lower schema == lower ns) with
  | none => rfl
  | some schema => simpa using List.find?_some found

theorem Spelled.spelling (spelled : Spelled db ns) : db.spelling ns = ns := by
  unfold Database.spelling
  cases found : db.schemas.find? (fun schema => lower schema == lower ns) with
  | none => rfl
  | some schema => exact spelled schema (List.mem_of_find?_eq_some found) (by simpa using List.find?_some found)

/-- Creating a schema writes no namespace differently. -/
theorem Spelled.createSchema (spelled : Spelled db ns) {added : String}
    (apart : lower added = lower ns -> added = ns) : Spelled (db.createSchema added) ns := by
  unfold Database.createSchema
  split
  · exact spelled
  · intro schema member same
    rcases List.mem_append.mp member with before | now
    · exact spelled schema before same
    · cases List.mem_singleton.mp now
      exact apart same

theorem createSchema_views (db : Database) (added : String) : (db.createSchema added).views = db.views := by
  unfold Database.createSchema
  split <;> rfl

theorem mem_createOrReplaceView {view created : View} :
    view ∈ createOrReplaceView created views ↔ (view ∈ views ∧ created.clashes view = false) ∨ view = created := by
  simp [createOrReplaceView]

/-- No view is there that was neither there before nor created now. -/
theorem mem_of_mem_createViews {creates : View -> Bool} {schema : String} {tables : List (String × String)}
    {view : View} (member : view ∈ createViews creates schema tables views) :
    view ∈ views ∨ Exists fun table : String × String => table ∈ tables ∧ view = ⟨schema, table.1, table.2⟩ := by
  induction tables generalizing views with
  | nil => exact Or.inl member
  | cons table tables ih =>
      rcases table with ⟨head, location⟩
      rcases ih member with before | ⟨table, listed, same⟩
      · by_cases made : creates ⟨schema, head, location⟩ = true
        · rw [if_pos made] at before
          rcases mem_createOrReplaceView.mp before with ⟨old, _⟩ | new
          · exact Or.inl old
          · exact Or.inr ⟨(head, location), List.mem_cons_self, new⟩
        · rw [if_neg made] at before
          exact Or.inl before
      · exact Or.inr ⟨table, List.mem_cons_of_mem _ listed, same⟩

/-- Where no table differs from it in case alone, a name is shown after the creations
exactly if it was before or its view was created. -/
theorem shows_createViews {creates : View -> Bool} {tables : List (String × String)}
    (apart : forall table, table ∈ tables -> lower table.1 = lower name -> table.1 = name) :
    Shows (createViews creates ns tables views) ns name ↔ Shows views ns name ∨
      Exists fun location : String => (name, location) ∈ tables ∧ creates ⟨ns, name, location⟩ = true := by
  induction tables generalizing views with
  | nil => simp [createViews]
  | cons table tables ih =>
      rcases table with ⟨head, location⟩
      have first := apart (head, location) List.mem_cons_self
      have rest (views : List View) := @ih views (fun table member => apart table (List.mem_cons_of_mem _ member))
      change Shows (createViews creates ns tables _) ns name ↔ _
      by_cases made : creates ⟨ns, head, location⟩ = true
      · rw [if_pos made, rest]
        constructor
        · rintro (⟨view, member, listed, named⟩ | ⟨found, member, ok⟩)
          · rcases mem_createOrReplaceView.mp member with ⟨old, _⟩ | new
            · exact Or.inl ⟨view, old, listed, named⟩
            · subst new
              exact Or.inr ⟨location, named ▸ List.mem_cons_self, named ▸ made⟩
          · exact Or.inr ⟨found, List.mem_cons_of_mem _ member, ok⟩
        · rintro (⟨view, member, listed, named⟩ | ⟨found, member, ok⟩)
          · left
            by_cases same : head = name
            · exact ⟨⟨ns, head, location⟩, mem_createOrReplaceView.mpr (Or.inr rfl), rfl, same⟩
            · refine ⟨view, mem_createOrReplaceView.mpr (Or.inl ⟨member, ?_⟩), listed, named⟩
              have differ : lower name ≠ lower head := fun equal => same (first equal.symm)
              simp [View.clashes, named, differ]
          · rcases List.mem_cons.mp member with here | later
            · cases here
              exact Or.inl ⟨⟨ns, name, location⟩, mem_createOrReplaceView.mpr (Or.inr rfl), rfl, rfl⟩
            · exact Or.inr ⟨found, later, ok⟩
      · rw [if_neg made, rest]
        constructor
        · rintro (before | ⟨found, member, ok⟩)
          · exact Or.inl before
          · exact Or.inr ⟨found, List.mem_cons_of_mem _ member, ok⟩
        · rintro (before | ⟨found, member, ok⟩)
          · exact Or.inl before
          · rcases List.mem_cons.mp member with here | later
            · cases here
              exact absurd ok made
            · exact Or.inr ⟨found, later, ok⟩

/-- Creations in a schema that the namespace does not find leave its views alone. -/
theorem sameIn_createViews {creates : View -> Bool} {schema : String} (different : lower schema ≠ lower ns)
    (tables : List (String × String)) {view : View} (listed : view.schema = ns) :
    view ∈ createViews creates schema tables views ↔ view ∈ views := by
  induction tables generalizing views with
  | nil => exact Iff.rfl
  | cons table tables ih =>
      rcases table with ⟨head, location⟩
      change view ∈ createViews creates schema tables _ ↔ _
      rw [ih]
      split
      · rw [mem_createOrReplaceView]
        have safe : View.clashes ⟨schema, head, location⟩ view = false := by
          have apart : lower view.schema ≠ lower schema := listed ▸ Ne.symm different
          simp [View.clashes, apart]
        constructor
        · rintro (⟨old, _⟩ | new)
          · exact old
          · exact absurd (by rw [← listed, new]) different
        · exact fun old => Or.inl ⟨old, safe⟩
      · exact Iff.rfl

theorem mem_prune {drops : View -> Bool} {desired : List String} {view : View} :
    view ∈ prune drops ns desired views ↔
      view ∈ views ∧ view ∉ (stale ns desired views).takeWhile drops := by
  simp [prune]

theorem mem_stale {desired : List String} {view : View} :
    view ∈ stale ns desired views ↔ view ∈ views ∧ view.schema = ns ∧ view.name ∉ desired := by
  simp [stale]

/-- A desired view stays. -/
theorem mem_prune_of_desired {drops : View -> Bool} {desired : List String} {view : View}
    (member : view ∈ views) (wanted : view.name ∈ desired) : view ∈ prune drops ns desired views :=
  mem_prune.mpr ⟨member, fun dropped =>
    (mem_stale.mp ((List.takeWhile_sublist drops).subset dropped)).2.2 wanted⟩

/-- The turn of a connection whose namespace differs by more than case leaves the
views of this namespace alone. -/
theorem sameIn_applyOne {number : Nat} {conn : Connection} (tables : List (String × String))
    (different : lower conn.icebergNamespace ≠ lower ns) : SameIn ns db (applyOne call number conn tables db) := by
  intro view listed
  have schema : lower ((db.createSchema conn.icebergNamespace).spelling conn.icebergNamespace) ≠ lower ns := by
    rw [lower_spelling]
    exact different
  have created := @sameIn_createViews (db.createSchema conn.icebergNamespace).views ns
    (call.creates number) _ schema tables view listed
  rw [createSchema_views] at created
  unfold applyOne
  simp only
  split
  · rw [mem_prune, createSchema_views, created]
    refine and_iff_left (fun dropped => different ?_)
    have member := mem_stale.mp ((List.takeWhile_sublist _).subset dropped)
    rw [← member.2.1, listed]
  · rw [createSchema_views, created]

theorem sameIn_applyAll {number : Nat} {conns : List Connection}
    (different : forall conn, conn ∈ conns -> lower conn.icebergNamespace ≠ lower ns) :
    SameIn ns db (applyAll call number (conns.map (fun conn => (conn, resolveTables call conn))) db).1 := by
  induction conns generalizing db with
  | nil => exact fun _ _ => Iff.rfl
  | cons conn conns ih =>
      rw [List.map_cons, applyAll]
      split
      · exact (sameIn_applyOne _ (different conn List.mem_cons_self)).trans
          (ih (fun other member => different other (List.mem_cons_of_mem _ member)))
      · exact fun _ _ => Iff.rfl

/-- The loop raises only where a secret or a schema is refused. -/
theorem applyAll_quiet {number : Nat} {conns : List Connection}
    (opened : forall conn, conn ∈ conns -> call.opens number conn = true) :
    (applyAll call number (conns.map (fun conn => (conn, resolveTables call conn))) db).2 = false := by
  induction conns generalizing db with
  | nil => rfl
  | cons conn conns ih =>
      rw [List.map_cons, applyAll, if_pos (opened conn List.mem_cons_self)]
      exact ih (fun other member => opened other (List.mem_cons_of_mem _ member))

/-- What the loop leaves of a namespace is what the turn of its own connection makes of
what was there, unless the loop raised before that turn. -/
theorem ownTurn (number : Nat) {conns : List Connection} {conn : Connection} (member : conn ∈ conns)
    (apart : (conns.map (fun conn => lower conn.icebergNamespace)).Nodup)
    (spelled : Spelled db conn.icebergNamespace) :
    let after := applyAll call number (conns.map (fun conn => (conn, resolveTables call conn))) db
    (Exists fun middle : Database => SameIn conn.icebergNamespace db middle ∧
        Spelled middle conn.icebergNamespace ∧
          SameIn conn.icebergNamespace (applyOne call number conn (resolveTables call conn) middle) after.1) ∨
      (after.2 = true ∧ SameIn conn.icebergNamespace db after.1) := by
  induction conns generalizing db with
  | nil => exact absurd member List.not_mem_nil
  | cons first conns ih =>
      rw [List.map_cons, List.nodup_cons] at apart
      rw [List.map_cons, applyAll]
      by_cases opened : call.opens number first = true
      · rw [if_pos opened]
        rcases List.mem_cons.mp member with same | later
        · subst same
          refine Or.inl ⟨db, fun _ _ => Iff.rfl, spelled, sameIn_applyAll (fun other listed equal => apart.1 ?_)⟩
          exact List.mem_map.mpr ⟨other, listed, equal⟩
        · have different : lower first.icebergNamespace ≠ lower conn.icebergNamespace := fun equal =>
            apart.1 (List.mem_map.mpr ⟨conn, later, equal.symm⟩)
          have still : Spelled (applyOne call number first (resolveTables call first) db) conn.icebergNamespace :=
            spelled.createSchema (fun equal => absurd equal different)
          have unchanged := @sameIn_applyOne call db _ number first (resolveTables call first) different
          rcases ih later apart.2 still with ⟨middle, before, kept, after⟩ | ⟨raised, after⟩
          · exact Or.inl ⟨middle, unchanged.trans before, kept, after⟩
          · exact Or.inr ⟨raised, unchanged.trans after⟩
      · rw [if_neg opened]
        exact Or.inr ⟨rfl, fun _ _ => Iff.rfl⟩

/-- The tables that a refresh resolves are those that the catalog lists and loads. -/
theorem mem_resolveTables {conn : Connection} {location : String} :
    (name, location) ∈ resolveTables call conn ↔ call.lists conn = true ∧
      call.HasTable conn.icebergNamespace name ∧
        call.loads conn (conn.icebergNamespace, name) = some location := by
  unfold resolveTables Call.listTables Call.HasTable
  by_cases listed : call.lists conn = true
  · rw [if_pos listed]
    simp only [List.mem_filterMap, List.mem_map, List.mem_filter, Option.map_eq_some_iff, Prod.mk.injEq,
      decide_eq_true_eq]
    constructor
    · rintro ⟨ident, ⟨table, ⟨member, spaced⟩, rfl⟩, found, loaded, rfl, rfl⟩
      refine ⟨listed, ⟨table, member, spaced, rfl⟩, ?_⟩
      rw [← spaced]
      exact loaded
    · rintro ⟨_, ⟨table, member, spaced, rfl⟩, loaded⟩
      refine ⟨_, ⟨table, ⟨member, spaced⟩, rfl⟩, location, ?_, rfl, rfl⟩
      rw [spaced]
      exact loaded
  · rw [if_neg listed]
    constructor
    · exact fun member => absurd member List.not_mem_nil
    · exact fun parts => absurd parts.1 listed

theorem mem_resolvedNames {conn : Connection} :
    name ∈ (resolveTables call conn).map Prod.fst ↔ call.lists conn = true ∧
      call.HasTable conn.icebergNamespace name ∧
        (call.loads conn (conn.icebergNamespace, name)).isSome = true := by
  constructor
  · intro member
    rcases List.mem_map.mp member with ⟨⟨_, location⟩, resolved, rfl⟩
    have parts := mem_resolveTables.mp resolved
    exact ⟨parts.1, parts.2.1, Option.isSome_iff_exists.mpr ⟨location, parts.2.2⟩⟩
  · rintro ⟨listed, held, loaded⟩
    rcases Option.isSome_iff_exists.mp loaded with ⟨location, found⟩
    exact List.mem_map_of_mem (mem_resolveTables.mpr ⟨listed, held, found⟩)

/-- The views of a namespace after its own turn, before the stale ones are dropped. -/
theorem applyOne_views {number : Nat} {conn : Connection} {tables : List (String × String)}
    (spelled : Spelled db conn.icebergNamespace) :
    (applyOne call number conn tables db).views =
      if call.lookedUp number conn then
        prune (call.drops number) conn.icebergNamespace (tables.map Prod.fst)
          (createViews (call.creates number) conn.icebergNamespace tables db.views)
      else createViews (call.creates number) conn.icebergNamespace tables db.views := by
  have own : (db.createSchema conn.icebergNamespace).spelling conn.icebergNamespace = conn.icebergNamespace :=
    (spelled.createSchema (fun _ => rfl)).spelling
  unfold applyOne
  simp only [own, createSchema_views]

section OwnTurn
variable {number : Nat} {conn : Connection}

/-- A table that the catalog answered for keeps the view it has, and gets one where
that succeeds. -/
theorem shows_applyOne (spelled : Spelled db conn.icebergNamespace)
    (apart : forall other, call.HasTable conn.icebergNamespace other -> lower other = lower name -> other = name)
    (resolved : name ∈ (resolveTables call conn).map Prod.fst)
    (made : Shows db.views conn.icebergNamespace name ∨ Exists fun location : String =>
      (name, location) ∈ resolveTables call conn ∧
        call.creates number ⟨conn.icebergNamespace, name, location⟩ = true) :
    Shows (applyOne call number conn (resolveTables call conn) db).views conn.icebergNamespace name := by
  have shown := (@shows_createViews db.views conn.icebergNamespace name (call.creates number)
    (resolveTables call conn) (fun table member => apart table.1 (mem_resolveTables.mp member).2.1)).mpr made
  rw [applyOne_views spelled]
  split
  · rcases shown with ⟨view, member, listed, rfl⟩
    exact ⟨view, mem_prune_of_desired member resolved, listed, rfl⟩
  · exact shown

/-- A name that is not a table of the catalog is not shown once its view was dropped. -/
theorem hasTable_of_shows_applyOne (spelled : Spelled db conn.icebergNamespace)
    (answered : forall other, call.HasTable conn.icebergNamespace other ->
      other ∈ (resolveTables call conn).map Prod.fst)
    (dropped : forall view, view ∈ db.views -> view.schema = conn.icebergNamespace ->
      ¬ call.HasTable conn.icebergNamespace view.name ->
        call.lookedUp number conn = true ∧ call.drops number view = true)
    (shown : Shows (applyOne call number conn (resolveTables call conn) db).views conn.icebergNamespace name) :
    call.HasTable conn.icebergNamespace name := by
  by_contra missing
  have old : forall view, view ∈ createViews (call.creates number) conn.icebergNamespace
      (resolveTables call conn) db.views -> ¬ call.HasTable conn.icebergNamespace view.name -> view ∈ db.views := by
    intro view member foreign
    rcases mem_of_mem_createViews member with before | ⟨table, listed, rfl⟩
    · exact before
    · exact absurd (mem_resolveTables.mp listed).2.1 foreign
  rcases shown with ⟨view, member, listed, rfl⟩
  rw [applyOne_views spelled] at member
  by_cases looked : call.lookedUp number conn = true
  · rw [if_pos looked, mem_prune] at member
    apply member.2
    have all : forall view, view ∈ stale conn.icebergNamespace ((resolveTables call conn).map Prod.fst)
        (createViews (call.creates number) conn.icebergNamespace (resolveTables call conn) db.views) ->
          call.drops number view = true := by
      intro view isStale
      have parts := mem_stale.mp isStale
      have foreign : ¬ call.HasTable conn.icebergNamespace view.name := fun held =>
        parts.2.2 (answered view.name held)
      exact (dropped view (old view parts.1 foreign) parts.2.1 foreign).2
    rw [List.takeWhile_eq_self_iff.mpr all]
    exact mem_stale.mpr ⟨member.1, listed, fun wanted => missing (mem_resolvedNames.mp wanted).2.1⟩
  · rw [if_neg looked] at member
    exact looked (dropped view (old view member missing) listed missing).1

end OwnTurn

/-! ## When views follow the catalog -/

/-- A pooled connection that the sweep reaches follows the catalog if the catalog
answered for the tables it shows and, where it answered for all, DuckDB did the rest. -/
theorem follows_apply {dconn : DuckConn} (apart : Apart call dconn) (answered : Answered call dconn) :
    Follows call dconn (apply call call.perConn dconn).1 := by
  have turn : forall conn, conn ∈ call.conns -> _ := fun conn member =>
    @ownTurn call dconn.db dconn.number call.conns conn member apart.namespaces (apart.spelled conn member)
  constructor
  · intro conn member name shown held
    have loaded := answered.viewed conn member name held shown
    rcases turn conn member with ⟨middle, before, spelled, after⟩ | ⟨_, after⟩
    · refine after.shows.mpr (shows_applyOne spelled ?_ ?_ (Or.inl (before.shows.mpr shown)))
      · exact fun other known same => apart.tables conn member other name known held same
      · exact mem_resolvedNames.mpr ⟨loaded.1, held, loaded.2⟩
    · exact after.shows.mpr shown
  · intro all conn member name
    have quiet := @applyAll_quiet call dconn.db _ _ (answered.opened all)
    rcases turn conn member with ⟨middle, before, spelled, after⟩ | ⟨raised, _⟩
    · have names : forall other, call.HasTable conn.icebergNamespace other ->
          other ∈ (resolveTables call conn).map Prod.fst := fun other held =>
        mem_resolvedNames.mpr ⟨(all conn member).1, held, (all conn member).2 other held⟩
      refine after.shows.trans ⟨fun shown => ?_, fun held => ?_⟩
      · refine hasTable_of_shows_applyOne spelled names (fun view listed schema foreign => ?_) shown
        exact answered.dropped all conn member view ((before view schema).mp listed) schema foreign
      · refine shows_applyOne spelled ?_ (names name held) ?_
        · exact fun other known same => apart.tables conn member other name known held same
        · refine (answered.created all conn member name held).imp before.shows.mpr (fun made => ?_)
          rcases Option.isSome_iff_exists.mp ((all conn member).2 name held) with ⟨location, found⟩
          exact ⟨location, mem_resolveTables.mpr ⟨(all conn member).1, held, found⟩, made location found⟩
    · exact absurd (quiet.symm.trans raised) Bool.false_ne_true

/-- A pooled connection that an exception keeps from being reached changes nothing, and
there is an exception only where a catalog call failed too. -/
theorem follows_self {dconn : DuckConn} (failed : ¬ call.AllAnswered) : Follows call dconn dconn :=
  ⟨fun _ _ _ shown _ => shown, fun all => absurd all failed⟩

theorem followsCatalog_of_answers {pool : List DuckConn} (answers : CatalogAnswers pool call) :
    FollowsCatalog pool call := by
  refine DuckDBPool.forall₂_swept
    (fun dconn member => follows_apply (answers dconn member).1 (answers dconn member).2) ?_
  by_cases all : call.AllAnswered
  · exact Or.inl (fun dconn member => applyAll_quiet ((answers dconn member).2.opened all))
  · exact Or.inr (fun dconn _ => follows_self all)

/-- The pool after a refresh holds the connections as the sweep left them, with those it
reached behind the others. -/
theorem refreshOnce_perm (call : Call) (pool : List DuckConn) :
    (refreshOnce call pool).1.Perm (refreshed call pool) := by
  unfold refreshOnce refreshed
  by_cases idle : call.conns = []
  · have nothing : call.perConn = [] := by
      unfold Call.perConn
      rw [idle, List.map_nil]
    have zero : call.total = 0 := by
      unfold Call.total
      rw [nothing, List.map_nil, List.sum_nil]
    have untouched : forall pool : List DuckConn, (DuckDBPool.swept (apply call []) pool).1 = pool ∧
        (DuckDBPool.swept (apply call []) pool).2 = [] := by
      intro pool
      induction pool with
      | nil => exact ⟨rfl, rfl⟩
      | cons dconn pool ih =>
          rw [DuckDBPool.swept]
          exact ⟨congrArg (List.cons dconn) ih.1, ih.2⟩
    rw [if_neg (fun either => either.elim (fun some_table => some_table zero) (fun enabled => enabled idle)),
      nothing, (untouched pool).1, (untouched pool).2, List.append_nil]
  · rw [if_pos (Or.inr idle)]
    change (DuckDBPool.forEach (apply call call.perConn) pool.length pool).Perm _
    rw [DuckDBPool.forEach_alone]
    exact List.perm_append_comm

/-- In a run of refreshes in each of which the catalog answers for the views there are,
names differ by more than case and DuckDB does what it is told, the views follow the
catalog in each. -/
theorem views_follow_catalog {pool : List DuckConn} {calls : List Call}
    (along : Along step CatalogAnswers pool calls) : Along step FollowsCatalog pool calls :=
  along.mono (fun _ _ => followsCatalog_of_answers)

/-- A connection with one table in its namespace. -/
def salesConnection : Connection :=
  { id := 1, name := "sales", enabled := true, sourceDsn := "", awsAccessKey := none, awsSecretKey := none
    awsRegion := "us-east-1", lakeBucket := "sales-lake", icebergNamespace := "sales", syncInclude := ""
    syncExclude := "", syncObjectTypes := "TABLE", syncSchemaBlacklist := "" }

/-- A refresh of its view, in which `list_tables` answers or not. -/
def salesRefresh (answers : Bool) : Call :=
  { conns := [salesConnection]
    catalog := [{ namespaceName := "sales", name := "orders", files := [] }]
    lists := fun _ => answers, loads := fun _ _ => some "v1.metadata.json", opens := fun _ _ => true
    creates := fun _ _ => true, lookedUp := fun _ _ => true, drops := fun _ _ => true }

/-- The pooled connection before the first refresh and after it. -/
def freshPool : List DuckConn :=
  [⟨0, ⟨["main"], []⟩⟩]

def salesPool : List DuckConn :=
  [⟨0, ⟨["main", "sales"], [⟨"sales", "orders", "v1.metadata.json"⟩]⟩⟩]

theorem salesRefresh_tables {answers : Bool} {name : String} (held : (salesRefresh answers).HasTable "sales" name) :
    name = "orders" := by
  rcases held with ⟨table, member, _, rfl⟩
  rw [List.mem_singleton.mp member]

theorem salesRefresh_answers {dconn : DuckConn} (spelled : Spelled dconn.db "sales") :
    Apart (salesRefresh true) dconn ∧ Answered (salesRefresh true) dconn := by
  have only : forall conn, conn ∈ (salesRefresh true).conns -> conn = salesConnection :=
    fun conn member => List.mem_singleton.mp member
  refine ⟨⟨List.nodup_singleton _, ?_, ?_⟩, ⟨?_, fun _ _ _ => rfl, fun _ _ _ _ _ => Or.inr (fun _ _ => rfl),
    fun _ _ _ _ _ _ _ => ⟨rfl, rfl⟩⟩⟩
  · intro conn member name other held known _
    cases only conn member
    rw [salesRefresh_tables held, salesRefresh_tables known]
  · intro conn member
    cases only conn member
    exact spelled
  · exact fun _ _ _ _ _ => ⟨rfl, rfl⟩

theorem sales_views_follow : Along step FollowsCatalog freshPool [salesRefresh true, salesRefresh true] := by
  apply views_follow_catalog
  refine ⟨fun dconn member => ?_, fun next taken => ⟨fun dconn member => ?_, fun _ _ => trivial⟩⟩
  · cases List.mem_singleton.mp member
    exact salesRefresh_answers (by unfold Spelled; decide)
  · have created : step freshPool (salesRefresh true) = some salesPool := by decide
    cases Option.some.inj (created.symm.trans taken)
    cases List.mem_singleton.mp member
    exact salesRefresh_answers (by unfold Spelled; decide)

/-- When `list_tables` fails once, the view of a table that exists is dropped. -/
theorem unlisted_view_is_dropped :
    Not (Along step FollowsCatalog freshPool [salesRefresh true, salesRefresh false]) := by
  intro along
  have created : step freshPool (salesRefresh true) = some salesPool := by decide
  have second := (along.2 salesPool created).1
  have emptied : refreshed (salesRefresh false) salesPool = [⟨0, ⟨["main", "sales"], []⟩⟩] := by decide
  rw [FollowsCatalog, emptied] at second
  rcases (List.forall₂_cons.mp second).1.kept salesConnection List.mem_cons_self "orders"
    ⟨_, List.mem_cons_self, rfl, rfl⟩ ⟨_, List.mem_cons_self, rfl, rfl⟩ with ⟨view, member, _⟩
  exact List.not_mem_nil member

end ViewRefresher
end WarehouseSync

import WarehouseSync.Library.Scripts
import WarehouseSync.State.Watermarks
import Mathlib.Data.List.Forall2
import Mathlib.Data.List.Nodup

namespace WarehouseSync
namespace Migrations

open IsoFormat Scripts Watermarks

/-!
# The schema of the metadata database (`common/migrations.py`)

One script creates the tables of a first deployment and upgrades those of
earlier releases.  PostgreSQL executes it in one transaction, so an error leaves
the database as it was.  Every statement is about one table, and nothing but the
columns, the primary key and the rows decides what it does.
-/

/-- A value that is not NULL.  Types are not declared by the columns here: what the
statements need of a value is whether it is there and what it equals. -/
inductive Cell where
  | number (value : Int)
  | text (value : String)
  | instant (value : AwareDateTime)
deriving DecidableEq

structure Column where
  name : String
  notNull : Bool
deriving DecidableEq, Repr

structure PrimaryKey where
  name : String
  columns : List String
deriving DecidableEq, Repr

/-- A row gives the value of each column.  A row is a function on all names, so that
adding a column changes one value and deleting none; what a table has is said by its
list of columns. -/
abbrev Row : Type :=
  String -> Option Cell

structure Table where
  columns : List Column
  primaryKey : Option PrimaryKey
  indexes : List String
  rows : List Row

/-- The tables of the schema, by name.  A missing table is `none`, which `CREATE
TABLE IF NOT EXISTS` tells apart from an empty one. -/
abbrev Database : Type :=
  String -> Option Table

def Table.has (table : Table) (name : String) : Bool :=
  table.columns.any (fun column => column.name == name)

def Table.keyColumns (table : Table) : List String :=
  table.primaryKey.elim [] PrimaryKey.columns

/-- What a primary key on these columns compares. -/
def keyOf (columns : List String) (row : Row) : List (Option Cell) :=
  columns.map row

inductive Change where
  /-- `CREATE TABLE IF NOT EXISTS` -/
  | createTable (columns : List Column) (key : PrimaryKey)
  /-- `CREATE INDEX IF NOT EXISTS` -/
  | createIndex (name : String) (columns : List String)
  /-- `ADD COLUMN IF NOT EXISTS` -/
  | addColumn (column : Column) (default : Option Cell)
  /-- `ALTER COLUMN … DROP NOT NULL` -/
  | dropNotNull (name : String)
  /-- The `DO` block: a primary key of as many columns, unless there is one. -/
  | primaryKey (key : PrimaryKey)
deriving DecidableEq

/-- `ADD CONSTRAINT … PRIMARY KEY` needs columns without NULLs and rows that differ
in them.  The rows of the deployment decide this, not the statement, and it is the
one place where an upgrade can fail. -/
def Table.allows (table : Table) (key : PrimaryKey) : Bool :=
  let keys := table.rows.map (keyOf key.columns)
  key.columns.all table.has && keys.all (fun values => !values.contains none) && decide keys.Nodup

def setNotNull (names : List String) (notNull : Bool) (column : Column) : Column :=
  if column.name ∈ names then { column with notNull := notNull } else column

/-- The statement on its table; `none` is an error.  What is there already is left
alone, which is what makes the script one that can be applied again. -/
def Change.exec : Change -> Option Table -> Option (Option Table)
  | .createTable columns key, none =>
      some (some { columns := columns, primaryKey := some key, indexes := [], rows := [] })
  | .createTable _ _, some table => some (some table)
  | _, none => none
  | .createIndex name columns, some table =>
      if name ∈ table.indexes then some (some table)
      else if columns.all table.has = true then some (some { table with indexes := name :: table.indexes })
      else none
  | .addColumn column default, some table =>
      if table.has column.name = true then some (some table)
      else if column.notNull = true ∧ default = none ∧ table.rows ≠ [] then none
      else some (some { table with
        columns := table.columns ++ [column]
        rows := table.rows.map (fun row => Function.update row column.name default) })
  | .dropNotNull name, some table =>
      if table.has name = true ∧ name ∉ table.keyColumns then
        some (some { table with columns := table.columns.map (setNotNull [name] false) })
      else none
  | .primaryKey key, some table =>
      if table.keyColumns.length = key.columns.length then some (some table)
      else if (table.primaryKey.all (fun old => old.name == key.name) && table.allows key) = true then
        some (some { table with
          primaryKey := some key
          columns := table.columns.map (setNotNull key.columns true) })
      else none

def statement (entry : String × Change) : Statement String (Option Table) :=
  { key := entry.1, change := entry.2.exec }

def required (name : String) : Column :=
  { name := name, notNull := true }

def nullable (name : String) : Column :=
  { name := name, notNull := false }

def createTable (name : String) (columns : List Column) (key : List String) : String × Change :=
  (name, .createTable columns { name := name ++ "_pkey", columns := key })

def watermarkColumns : List Column :=
  [required "table_fqn", required "last_ts", required "last_id", required "updated_at"]

def chunkStateColumns : List Column :=
  [required "run_id", required "chunk_key", required "status", nullable "s3_uri", nullable "rows", nullable "error",
    required "updated_at"]

def viewRefreshColumns : List Column :=
  [required "view_name", required "iceberg_table", nullable "metadata_location", nullable "refreshed_at"]

/-- `DDL`, without what it says about the types, defaults and other constraints
of columns of new tables. -/
def ddl : List (String × Change) :=
  [createTable "pipeline_watermarks" watermarkColumns ["table_fqn"],
    createTable "pipeline_chunk_state" chunkStateColumns ["run_id", "chunk_key"],
    ("pipeline_chunk_state", .createIndex "pipeline_chunk_state_status_idx" ["run_id", "status"]),
    createTable "gateway_view_refresh" viewRefreshColumns ["view_name"],
    createTable "pipeline_connections"
      [required "id", required "name", required "enabled", required "source_dsn_enc", nullable "aws_access_key_enc",
        nullable "aws_secret_key_enc", required "aws_region", required "lake_bucket", required "iceberg_namespace",
        required "sync_include", required "sync_exclude", required "sync_object_types",
        required "sync_schema_blacklist", required "created_at", required "updated_at"] ["id"],
    createTable "pipeline_sync_selection"
      [required "connection_id", required "schema_name", required "object_name", required "kind",
        required "enabled", required "updated_at"] ["connection_id", "schema_name", "object_name"],
    createTable "pipeline_settings" [required "key", nullable "value", required "updated_at"] ["key"],
    createTable "pipeline_object_state"
      [required "connection_id", required "table_fqn", nullable "last_synced_at", nullable "last_kind",
        nullable "last_run_id", nullable "last_rows"] ["connection_id", "table_fqn"],
    createTable "pipeline_api_tokens"
      [required "id", required "name", required "email", required "connection_id", required "role",
        required "token_hash", required "token_prefix", required "created_at", nullable "last_used_at",
        required "revoked"] ["id"],
    createTable "pipeline_users"
      [required "email", required "role", required "enabled", required "created_at"] ["email"],
    ("pipeline_watermarks", .addColumn (required "connection_id") (some (.number 1))),
    ("pipeline_chunk_state", .addColumn (required "connection_id") (some (.number 1))),
    ("pipeline_watermarks", .addColumn (nullable "last_value") none),
    ("pipeline_watermarks", .dropNotNull "last_ts"),
    ("pipeline_watermarks", .primaryKey
      { name := "pipeline_watermarks_pkey", columns := ["connection_id", "table_fqn"] })]

/-- `apply`; the transaction is rolled back when a statement fails. -/
def apply (database : Database) : Option Database :=
  executeAll (ddl.map statement) database

/-! ## What a statement settles -/

/-- What there is nothing left to do for. -/
def Change.Settled : Change -> Option Table -> Prop
  | _, none => False
  | .createTable _ _, some _ => True
  | .createIndex name _, some table => name ∈ table.indexes
  | .addColumn column _, some table => table.has column.name = true
  | .dropNotNull name, some table => table.has name = true ∧ name ∉ table.keyColumns ∧
      forall column, column ∈ table.columns -> column.name = name -> column.notNull = false
  | .primaryKey key, some table => table.keyColumns.length = key.columns.length

theorem has_iff {table : Table} {name : String} : table.has name = true ↔
    Exists fun column : Column => column ∈ table.columns ∧ column.name = name := by
  simp [Table.has]

@[simp] theorem setNotNull_name (names : List String) (notNull : Bool) (column : Column) :
    (setNotNull names notNull column).name = column.name := by
  unfold setNotNull
  split
  · rfl
  · rfl

theorem setNotNull_of_mem {names : List String} {notNull : Bool} {column : Column} (listed : column.name ∈ names) :
    (setNotNull names notNull column).notNull = notNull := by
  unfold setNotNull
  rw [if_pos listed]

theorem setNotNull_of_not_mem {names : List String} {notNull : Bool} {column : Column}
    (unlisted : column.name ∉ names) : setNotNull names notNull column = column :=
  if_neg unlisted

theorem any_map_setNotNull (names : List String) (notNull : Bool) (name : String) (columns : List Column) :
    (columns.map (setNotNull names notNull)).any (fun column => column.name == name) =
      columns.any (fun column => column.name == name) := by
  simp [List.any_map, Function.comp_def]

theorem Change.settles (change : Change) (value next : Option Table) (changed : change.exec value = some next) :
    change.Settled next := by
  cases value with
  | none =>
      cases change with
      | createTable columns key =>
          cases changed
          trivial
      | _ => cases changed
  | some table =>
      cases change with
      | createTable columns key =>
          cases changed
          trivial
      | createIndex name columns =>
          simp only [Change.exec] at changed
          split at changed
          · rename_i present
            cases changed
            exact present
          · split at changed
            · cases changed
              exact List.mem_cons_self
            · cases changed
      | addColumn column default =>
          simp only [Change.exec] at changed
          split at changed
          · rename_i present
            cases changed
            exact present
          · split at changed
            · cases changed
            · cases changed
              exact has_iff.mpr ⟨column, List.mem_append_right _ List.mem_cons_self, rfl⟩
      | dropNotNull name =>
          simp only [Change.exec] at changed
          split at changed
          · rename_i allowed
            cases changed
            refine ⟨(any_map_setNotNull _ _ name table.columns).trans allowed.1, allowed.2, ?_⟩
            intro column member same
            rcases List.mem_map.mp member with ⟨old, _, rfl⟩
            rw [setNotNull_name] at same
            exact setNotNull_of_mem (List.mem_singleton.mpr same)
          · cases changed
      | primaryKey key =>
          simp only [Change.exec] at changed
          split at changed
          · rename_i same
            cases changed
            exact same
          · split at changed
            · cases changed
              rfl
            · cases changed

theorem Change.skips (change : Change) (value : Option Table) (settled : change.Settled value) :
    change.exec value = some value := by
  cases value with
  | none => cases change with
    | _ => exact settled.elim
  | some table =>
      cases change with
      | createTable columns key => rfl
      | createIndex name columns => exact if_pos settled
      | addColumn column default => exact if_pos settled
      | primaryKey key => exact if_pos settled
      | dropNotNull name =>
          rcases settled with ⟨present, outside, nullable⟩
          have same : table.columns.map (setNotNull [name] false) = table.columns := by
            apply (List.map_congr_left _).trans (List.map_id _)
            intro column member
            by_cases here : column.name = name
            · have already := nullable column member here
              unfold setNotNull
              rw [if_pos (List.mem_singleton.mpr here), ← already]
              rfl
            · exact setNotNull_of_not_mem (fun listed => here (List.mem_singleton.mp listed))
          simp only [Change.exec, if_pos (And.intro present outside), same]

/-- Only another primary key undoes that a column may be NULL, or a key of this
length. -/
def compatible : Change -> Change -> Prop
  | .dropNotNull name, .primaryKey key => name ∉ key.columns
  | .primaryKey key, .primaryKey other => key.columns.length = other.columns.length
  | _, _ => True

instance decidableCompatible : forall earlier later : Change, Decidable (compatible earlier later)
  | .dropNotNull name, .primaryKey key => inferInstanceAs (Decidable (name ∉ key.columns))
  | .primaryKey key, .primaryKey other => inferInstanceAs (Decidable (key.columns.length = other.columns.length))
  | .createTable _ _, _ => isTrue trivial
  | .createIndex _ _, _ => isTrue trivial
  | .addColumn _ _, _ => isTrue trivial
  | .dropNotNull _, .createTable _ _ => isTrue trivial
  | .dropNotNull _, .createIndex _ _ => isTrue trivial
  | .dropNotNull _, .addColumn _ _ => isTrue trivial
  | .dropNotNull _, .dropNotNull _ => isTrue trivial
  | .primaryKey _, .createTable _ _ => isTrue trivial
  | .primaryKey _, .createIndex _ _ => isTrue trivial
  | .primaryKey _, .addColumn _ _ => isTrue trivial
  | .primaryKey _, .dropNotNull _ => isTrue trivial

/-- What a statement leaves of a table: all its columns and indexes, and every
row with the values it had. -/
structure Grows (change : Change) (table after : Table) : Prop where
  has : forall name, table.has name = true -> after.has name = true
  indexes : table.indexes ⊆ after.indexes
  rows : List.Forall₂ (fun row grown : Row => forall name, table.has name = true -> grown name = row name)
    table.rows after.rows
  columns : forall column, column ∈ after.columns -> column ∈ table.columns ∨ table.has column.name = false ∨
    column.notNull = false ∨ Exists fun key : PrimaryKey => change = .primaryKey key ∧ column.name ∈ key.columns
  primaryKey : after.primaryKey = table.primaryKey ∨ Exists fun key : PrimaryKey =>
    change = .primaryKey key ∧ after.primaryKey = some key ∧ table.keyColumns.length ≠ key.columns.length

theorem sameRows (has : String -> Bool) (rows : List Row) :
    List.Forall₂ (fun row grown : Row => forall name, has name = true -> grown name = row name) rows rows :=
  List.forall₂_same.mpr (fun _ _ _ _ => rfl)

theorem Grows.refl (change : Change) (table : Table) : Grows change table table :=
  ⟨fun _ present => present, List.Subset.refl _, sameRows _ _, fun _ member => Or.inl member, Or.inl rfl⟩

theorem Change.grows {change : Change} {table : Table} {next : Option Table}
    (changed : change.exec (some table) = some next) :
    Exists fun after : Table => next = some after ∧ Grows change table after := by
  cases change with
  | createTable columns key =>
      cases changed
      exact ⟨table, rfl, Grows.refl _ _⟩
  | createIndex name columns =>
      simp only [Change.exec] at changed
      split at changed
      · cases changed
        exact ⟨table, rfl, Grows.refl _ _⟩
      · split at changed
        · cases changed
          exact ⟨_, rfl, fun _ present => present, List.subset_cons_self _ _,
            sameRows _ _, fun _ member => Or.inl member,
            Or.inl rfl⟩
        · cases changed
  | addColumn column default =>
      simp only [Change.exec] at changed
      split at changed
      · cases changed
        exact ⟨table, rfl, Grows.refl _ _⟩
      · rename_i fresh
        split at changed
        · cases changed
        · cases changed
          refine ⟨_, rfl, ?_, List.Subset.refl _, ?_, ?_, Or.inl rfl⟩
          · intro name present
            rcases has_iff.mp present with ⟨old, member, same⟩
            exact has_iff.mpr ⟨old, List.mem_append_left _ member, same⟩
          · refine List.forall₂_map_right_iff.mpr (List.forall₂_same.mpr (fun row _ name present => ?_))
            have other : name ≠ column.name := by
              rintro rfl
              exact fresh present
            rw [Function.update_of_ne other]
          · intro added member
            rcases List.mem_append.mp member with old | new
            · exact Or.inl old
            · rw [List.mem_singleton.mp new]
              exact Or.inr (Or.inl (Bool.eq_false_iff.mpr fresh))
  | dropNotNull name =>
      simp only [Change.exec] at changed
      split at changed
      · cases changed
        refine ⟨_, rfl, ?_, List.Subset.refl _, sameRows _ _, ?_, Or.inl rfl⟩
        · exact fun other present => (any_map_setNotNull _ _ other table.columns).trans present
        · intro column member
          rcases List.mem_map.mp member with ⟨old, listed, rfl⟩
          by_cases here : old.name ∈ [name]
          · exact Or.inr (Or.inr (Or.inl (setNotNull_of_mem here)))
          · rw [setNotNull_of_not_mem here]
            exact Or.inl listed
      · cases changed
  | primaryKey key =>
      simp only [Change.exec] at changed
      split at changed
      · cases changed
        exact ⟨table, rfl, Grows.refl _ _⟩
      · rename_i different
        split at changed
        · cases changed
          refine ⟨_, rfl, ?_, List.Subset.refl _, sameRows _ _, ?_, Or.inr ⟨key, rfl, rfl, different⟩⟩
          · exact fun other present => (any_map_setNotNull _ _ other table.columns).trans present
          · intro column member
            rcases List.mem_map.mp member with ⟨old, listed, rfl⟩
            by_cases here : old.name ∈ key.columns
            · rw [setNotNull_name]
              exact Or.inr (Or.inr (Or.inr ⟨key, rfl, here⟩))
            · rw [setNotNull_of_not_mem here]
              exact Or.inl listed
        · cases changed

/-- What was settled stays so under compatible statements. -/
theorem Change.respects {earlier later : Change} (allowed : compatible earlier later) :
    Respects later.exec earlier.Settled := by
  intro value next settled changed
  cases value with
  | none => cases earlier with
    | _ => exact settled.elim
  | some table =>
      rcases Change.grows changed with ⟨after, rfl, grows⟩
      cases earlier with
      | createTable columns key => trivial
      | createIndex name columns => exact grows.indexes settled
      | addColumn column default => exact grows.has _ settled
      | primaryKey key =>
          rcases grows.primaryKey with same | ⟨other, rfl, new, different⟩
          · have kept : after.keyColumns = table.keyColumns := by
              unfold Table.keyColumns
              rw [same]
            exact (congrArg List.length kept).trans settled
          · exact absurd ((settled : table.keyColumns.length = _).trans allowed) different
      | dropNotNull name =>
          rcases settled with ⟨present, outside, nullable⟩
          refine ⟨grows.has _ present, ?_, ?_⟩
          · rcases grows.primaryKey with same | ⟨other, rfl, new, _⟩
            · unfold Table.keyColumns
              rw [same]
              exact outside
            · unfold Table.keyColumns
              rw [new]
              exact allowed
          · intro column member same
            rcases grows.columns column member with old | fresh | already | ⟨key, rfl, listed⟩
            · exact nullable column old same
            · rw [same, present] at fresh
              cases fresh
            · exact already
            · exact absurd (same ▸ listed) allowed

def Change.guarded (change : Change) : Guarded (Option Table) :=
  { change := change.exec, Settled := change.Settled, settles := change.settles, skips := change.skips }

/-- The statements about one table. -/
def ddlFor (name : String) : List Change :=
  (ddl.filter (fun entry => decide (entry.1 = name))).map Prod.snd

theorem changesAt_ddl (name : String) :
    changesAt name (ddl.map statement) = ((ddlFor name).map Change.guarded).map Guarded.change := by
  unfold changesAt ddlFor
  rw [List.filter_map, List.map_map, List.map_map, List.map_map]
  rfl

/-- What the script does to one table. -/
theorem apply_eq_some_iff {database after : Database} : apply database = some after ↔
    forall name, inTurn (((ddlFor name).map Change.guarded).map Guarded.change)
      (database name) = some (after name) := by
  simp only [apply, executeAll_eq_some_iff, changesAt_ddl]

theorem ddlFor_eq_nil {name : String} (unlisted : name ∉ ddl.map Prod.fst) : ddlFor name = [] := by
  refine List.map_eq_nil_iff.mpr (List.filter_eq_nil_iff.mpr ?_)
  rintro entry member same
  exact unlisted (List.mem_map.mpr ⟨entry, member, of_decide_eq_true same⟩)

/-- Tables that are not there yet are created. -/
theorem inTurn_absent (name : String) :
    (inTurn (((ddlFor name).map Change.guarded).map Guarded.change) none).isSome = true := by
  by_cases listed : name ∈ ddl.map Prod.fst
  · revert name
    decide
  · rw [ddlFor_eq_nil listed]
    rfl

theorem ddl_compatible (name : String) : (ddlFor name).Pairwise compatible := by
  have everywhere : (ddl.map Prod.snd).Pairwise compatible := by decide
  exact everywhere.sublist (List.filter_sublist.map Prod.snd)

/-- Whatever database it was applied to, applying the script again succeeds and
changes nothing. -/
theorem apply_idempotent (database after : Database) (applied : apply database = some after) :
    apply after = some after := by
  refine apply_eq_some_iff.mpr (fun name => ?_)
  apply inTurn_again _ (apply_eq_some_iff.mp applied name)
  refine List.pairwise_map.mpr ((ddl_compatible name).imp ?_)
  exact fun allowed => Change.respects allowed

/-- A new deployment is set up, and then left as it is. -/
theorem fresh_applied_twice : Exists fun after : Database =>
    apply (fun _ => none) = some after ∧ apply after = some after := by
  have succeeds : (apply (fun _ => none)).isSome = true := by
    refine executeAll_isSome_iff.mpr (fun name => ?_)
    rw [changesAt_ddl]
    exact inTurn_absent name
  rcases Option.isSome_iff_exists.mp succeeds with ⟨after, applied⟩
  exact ⟨after, applied, apply_idempotent _ after applied⟩

/-! ## Upgrading -/

theorem forall₂_trans {ρ : Type} {first second both : ρ -> ρ -> Prop}
    (compose : forall row middle grown, first row middle -> second middle grown -> both row grown)
    {rows between after : List ρ} (once : List.Forall₂ first rows between)
    (again : List.Forall₂ second between after) : List.Forall₂ both rows after := by
  induction once generalizing after with
  | nil =>
      cases again
      exact List.Forall₂.nil
  | cons head _ ih =>
      cases again with
      | cons next rest => exact List.Forall₂.cons (compose _ _ _ head next) (ih rest)

theorem inTurn_grows {changes : List Change} {table : Table} {next : Option Table}
    (done : inTurn ((changes.map Change.guarded).map Guarded.change) (some table) = some next) :
    Exists fun after : Table => next = some after ∧ (forall name, table.has name = true -> after.has name = true) ∧
      List.Forall₂ (fun row grown : Row => forall name, table.has name = true -> grown name = row name)
        table.rows after.rows := by
  induction changes generalizing table with
  | nil =>
      cases done
      exact ⟨table, rfl, fun _ present => present, sameRows _ _⟩
  | cons change changes ih =>
      rcases inTurn_cons_eq_some.mp done with ⟨middle, changed, rest⟩
      rcases Change.grows changed with ⟨between, rfl, grows⟩
      rcases ih rest with ⟨after, rfl, has, rows⟩
      refine ⟨after, rfl, fun name present => has name (grows.has name present), forall₂_trans ?_ grows.rows rows⟩
      exact fun row halfway grown once again name present =>
        (again name (grows.has name present)).trans (once name present)

/-- What adding a column leaves. -/
def Table.withColumn (table : Table) (column : Column) (default : Option Cell) : Table :=
  if table.has column.name = true then table
  else { table with
    columns := table.columns ++ [column]
    rows := table.rows.map (fun row => Function.update row column.name default) }

theorem exec_addColumn {column : Column} {default : Option Cell} (allowed : column.notNull = false ∨ default ≠ none)
    (table : Table) :
    (Change.addColumn column default).exec (some table) = some (some (table.withColumn column default)) := by
  simp only [Change.exec, Table.withColumn]
  by_cases present : table.has column.name = true
  · rw [if_pos present, if_pos present]
  · rw [if_neg present, if_neg present, if_neg]
    rintro ⟨notNull, none, _⟩
    rcases allowed with nullable | given
    · rw [notNull] at nullable
      cases nullable
    · exact given none

@[simp] theorem has_withColumn (table : Table) (column : Column) (default : Option Cell) (name : String) :
    (table.withColumn column default).has name = (table.has name || column.name == name) := by
  unfold Table.withColumn
  split
  · rename_i present
    by_cases same : column.name = name
    · subst same
      simp [present]
    · simp [same]
  · simp [Table.has]

@[simp] theorem keyColumns_withColumn (table : Table) (column : Column) (default : Option Cell) :
    (table.withColumn column default).keyColumns = table.keyColumns := by
  unfold Table.withColumn
  split
  · rfl
  · rfl

@[simp] theorem primaryKey_withColumn (table : Table) (column : Column) (default : Option Cell) :
    (table.withColumn column default).primaryKey = table.primaryKey := by
  unfold Table.withColumn
  split
  · rfl
  · rfl

/-- The value of the column afterwards. -/
def Table.valueOr (table : Table) (column : String) (default : Option Cell) (row : Row) : Option Cell :=
  if table.has column = true then row column else default

theorem rows_withColumn (table : Table) (column : Column) (default : Option Cell) :
    (table.withColumn column default).rows = table.rows.map (fun row =>
      Function.update row column.name (table.valueOr column.name default row)) := by
  unfold Table.withColumn Table.valueOr
  by_cases present : table.has column.name = true
  · simp [present]
  · simp [present]

/-- The key that a watermark row has after the upgrade; rows of the first
releases belong to connection 1. -/
def upgradedKey (table : Table) (row : Row) : List (Option Cell) :=
  [table.valueOr "connection_id" (some (.number 1)) row, row "table_fqn"]

/-- When the watermarks of an earlier release can be upgraded. -/
def WatermarksUpgrade (table : Table) : Prop :=
  table.has "last_ts" = true ∧ "last_ts" ∉ table.keyColumns ∧
    (table.keyColumns.length = 2 ∨
      ((forall key, table.primaryKey = some key -> key.name = "pipeline_watermarks_pkey") ∧
        table.has "table_fqn" = true ∧
        (forall row, row ∈ table.rows -> none ∉ upgradedKey table row) ∧
        (table.rows.map (upgradedKey table)).Nodup))

/-- The table before the primary key is looked at. -/
def widened (table : Table) : Table :=
  (table.withColumn (required "connection_id") (some (.number 1))).withColumn (nullable "last_value") none

theorem keyOf_widened (table : Table) (row : Row) :
    keyOf ["connection_id", "table_fqn"] (Function.update (Function.update row "connection_id"
      (table.valueOr "connection_id" (some (.number 1)) row)) "last_value"
        ((table.withColumn (required "connection_id") (some (.number 1))).valueOr "last_value" none
          (Function.update row "connection_id" (table.valueOr "connection_id" (some (.number 1)) row)))) =
      upgradedKey table row := by
  simp [keyOf, upgradedKey]

theorem keys_widened (table : Table) :
    (widened table).rows.map (keyOf ["connection_id", "table_fqn"]) = table.rows.map (upgradedKey table) := by
  unfold widened
  rw [rows_withColumn, rows_withColumn, List.map_map, List.map_map]
  exact List.map_congr_left (fun row _ => keyOf_widened table row)

/-- The table as the primary key is added to it. -/
def unlocked (table : Table) : Table :=
  { widened table with columns := (widened table).columns.map (setNotNull ["last_ts"] false) }

theorem has_unlocked (table : Table) (name : String) :
    (unlocked table).has name = (table.has name || "connection_id" == name || "last_value" == name) := by
  have renamed : (unlocked table).has name = (widened table).has name := any_map_setNotNull _ _ _ _
  rw [renamed]
  unfold widened
  rw [has_withColumn, has_withColumn]
  rfl

def watermarksKey : PrimaryKey :=
  { name := "pipeline_watermarks_pkey", columns := ["connection_id", "table_fqn"] }

theorem allows_unlocked (table : Table) : (unlocked table).allows watermarksKey = true ↔
    table.has "table_fqn" = true ∧ (forall row, row ∈ table.rows -> none ∉ upgradedKey table row) ∧
      (table.rows.map (upgradedKey table)).Nodup := by
  have keys : (unlocked table).rows.map (keyOf ["connection_id", "table_fqn"]) = table.rows.map (upgradedKey table) :=
    keys_widened table
  unfold Table.allows watermarksKey
  simp only [keys, List.all_cons, List.all_nil, has_unlocked, Bool.and_eq_true, decide_eq_true_eq]
  simp [List.all_map, Function.comp_def, and_assoc]

theorem keyColumns_widened (table : Table) : (widened table).keyColumns = table.keyColumns := by
  unfold widened
  rw [keyColumns_withColumn, keyColumns_withColumn]

theorem exec_dropNotNull (table : Table) : (Change.dropNotNull "last_ts").exec (some (widened table)) =
    if table.has "last_ts" = true ∧ "last_ts" ∉ table.keyColumns then some (some (unlocked table)) else none := by
  have named : (widened table).has "last_ts" = table.has "last_ts" := by
    unfold widened
    simp [required, nullable]
  simp only [Change.exec, named, keyColumns_widened]
  rfl

theorem primaryKey_unlocked (table : Table) : (unlocked table).primaryKey = table.primaryKey := by
  change (widened table).primaryKey = table.primaryKey
  unfold widened
  rw [primaryKey_withColumn, primaryKey_withColumn]

theorem exec_primaryKey_isSome (table : Table) (key : PrimaryKey) :
    ((Change.primaryKey key).exec (some table)).isSome = true ↔ table.keyColumns.length = key.columns.length ∨
      ((forall old, table.primaryKey = some old -> old.name = key.name) ∧ table.allows key = true) := by
  have named : table.primaryKey.all (fun old => old.name == key.name) = true ↔
      forall old, table.primaryKey = some old -> old.name = key.name := by
    cases table.primaryKey with
    | none => simp
    | some old => simp
  rw [← named, ← Bool.and_eq_true]
  simp only [Change.exec]
  split
  · rename_i same
    exact iff_of_true rfl (Or.inl same)
  · rename_i different
    split
    · rename_i allowed
      exact iff_of_true rfl (Or.inr allowed)
    · rename_i refused
      exact iff_of_false Bool.false_ne_true (fun either => either.elim different refused)

theorem exec_createTable (columns : List Column) (key : PrimaryKey) (table : Table) :
    (Change.createTable columns key).exec (some table) = some (some table) :=
  rfl

/-- What the script does with watermarks that it finds. -/
theorem inTurn_watermarks (table : Table) :
    inTurn (((ddlFor "pipeline_watermarks").map Change.guarded).map Guarded.change) (some table) =
      if table.has "last_ts" = true ∧ "last_ts" ∉ table.keyColumns then
        (Change.primaryKey watermarksKey).exec (some (unlocked table))
      else none := by
  have script : ((ddlFor "pipeline_watermarks").map Change.guarded).map Guarded.change =
      [(Change.createTable watermarkColumns { name := "pipeline_watermarks_pkey", columns := ["table_fqn"] }).exec,
        (Change.addColumn (required "connection_id") (some (.number 1))).exec,
        (Change.addColumn (nullable "last_value") none).exec, (Change.dropNotNull "last_ts").exec,
        (Change.primaryKey watermarksKey).exec] := rfl
  have given : some (Cell.number 1) ≠ none := Option.some_ne_none _
  rw [script, inTurn_cons_of_some (exec_createTable _ _ table),
    inTurn_cons_of_some (exec_addColumn (Or.inr given) table), inTurn_cons_of_some (exec_addColumn (Or.inl rfl) _)]
  change inTurn _ (some (widened table)) = _
  split
  · rename_i free
    rw [inTurn_cons_of_some ((exec_dropNotNull table).trans (if_pos free))]
    exact inTurn_singleton _ _
  · rename_i locked
    exact inTurn_cons_of_none ((exec_dropNotNull table).trans (if_neg locked)) _

/-- When the script upgrades a table of watermarks. -/
theorem watermarks_upgrade_iff (table : Table) :
    (inTurn (((ddlFor "pipeline_watermarks").map Change.guarded).map Guarded.change) (some table)).isSome = true ↔
      WatermarksUpgrade table := by
  rw [inTurn_watermarks]
  split
  · rename_i free
    have keyColumns : (unlocked table).keyColumns = table.keyColumns := by
      unfold Table.keyColumns
      rw [primaryKey_unlocked]
    rw [exec_primaryKey_isSome, keyColumns, primaryKey_unlocked, allows_unlocked]
    exact ⟨fun either => ⟨free.1, free.2, either⟩, fun upgrade => upgrade.2.2⟩
  · rename_i locked
    exact iff_of_false Bool.false_ne_true (fun upgrade => locked ⟨upgrade.1, upgrade.2.1⟩)

theorem rows_of_primaryKey {table after : Table} {key : PrimaryKey}
    (changed : (Change.primaryKey key).exec (some table) = some (some after)) : after.rows = table.rows := by
  simp only [Change.exec] at changed
  split at changed
  · cases changed
    rfl
  · split at changed
    · cases changed
      rfl
    · cases changed

/-- What the script does to the rows. -/
theorem rows_upgraded {table after : Table}
    (done : inTurn (((ddlFor "pipeline_watermarks").map Change.guarded).map Guarded.change) (some table) =
      some (some after)) : after.rows = (widened table).rows := by
  rw [inTurn_watermarks] at done
  split at done
  · have kept : after.rows = (unlocked table).rows := rows_of_primaryKey done
    exact kept
  · cases done

def Cell.number? : Cell -> Option Int
  | .number value => some value
  | _ => none

def Cell.text? : Cell -> Option String
  | .text value => some value
  | _ => none

def Cell.instant? : Cell -> Option AwareDateTime
  | .instant value => some value
  | _ => none

def isRowOf (connectionId : Int) (tableFqn : String) (row : Row) : Bool :=
  row "connection_id" == some (.number connectionId) && row "table_fqn" == some (.text tableFqn)

def decode (row : Row) : Watermarks.Row :=
  { lastValue := (row "last_value").bind Cell.text?
    lastTs := (row "last_ts").bind Cell.instant?
    lastId := ((row "last_id").bind Cell.number?).getD 0 }

/-- The row that `get_watermark` reads. -/
def stored (database : Database) (connectionId : Int) (tableFqn : String) : Option Watermarks.Row :=
  (((database "pipeline_watermarks").elim [] Table.rows).find? (isRowOf connectionId tableFqn)).map decode

structure FirstWatermark where
  tableFqn : String
  lastTs : AwareDateTime
  lastId : Int
  updatedAt : AwareDateTime

def FirstWatermark.row (entry : FirstWatermark) : Row
  | "table_fqn" => some (.text entry.tableFqn)
  | "last_ts" => some (.instant entry.lastTs)
  | "last_id" => some (.number entry.lastId)
  | "updated_at" => some (.instant entry.updatedAt)
  | _ => none

/-- What a deployment holds that has no UI-managed configuration yet. -/
structure FirstRelease where
  watermarks : List FirstWatermark
  distinct : (watermarks.map FirstWatermark.tableFqn).Nodup
  chunks : List Row
  views : List Row

def FirstRelease.watermarkTable (release : FirstRelease) : Table :=
  { columns := watermarkColumns
    primaryKey := some { name := "pipeline_watermarks_pkey", columns := ["table_fqn"] }
    indexes := []
    rows := release.watermarks.map FirstWatermark.row }

def FirstRelease.chunkTable (release : FirstRelease) : Table :=
  { columns := chunkStateColumns
    primaryKey := some { name := "pipeline_chunk_state_pkey", columns := ["run_id", "chunk_key"] }
    indexes := ["pipeline_chunk_state_status_idx"]
    rows := release.chunks }

def FirstRelease.viewTable (release : FirstRelease) : Table :=
  { columns := viewRefreshColumns
    primaryKey := some { name := "gateway_view_refresh_pkey", columns := ["view_name"] }
    indexes := []
    rows := release.views }

/-- The database as the first release left it: three tables, whose keys do not know
of connections yet. -/
def FirstRelease.database (release : FirstRelease) : Database
  | "pipeline_watermarks" => some release.watermarkTable
  | "pipeline_chunk_state" => some release.chunkTable
  | "gateway_view_refresh" => some release.viewTable
  | _ => none

theorem upgradedKey_row (release : FirstRelease) (entry : FirstWatermark) :
    upgradedKey release.watermarkTable entry.row = [some (.number 1), some (.text entry.tableFqn)] := by
  have unscoped : release.watermarkTable.has "connection_id" = false := rfl
  unfold upgradedKey Table.valueOr
  rw [unscoped]
  rfl

theorem upgradedKeys_nodup (release : FirstRelease) :
    (release.watermarkTable.rows.map (upgradedKey release.watermarkTable)).Nodup := by
  have keys : release.watermarkTable.rows.map (upgradedKey release.watermarkTable) =
      (release.watermarks.map FirstWatermark.tableFqn).map (fun tableFqn =>
        [some (.number 1), some (.text tableFqn)]) := by
    change (release.watermarks.map FirstWatermark.row).map (upgradedKey release.watermarkTable) = _
    rw [List.map_map, List.map_map]
    exact List.map_congr_left (fun entry _ => upgradedKey_row release entry)
  rw [keys]
  refine List.Nodup.map ?_ release.distinct
  intro first second same
  simpa using same

theorem upgrades (release : FirstRelease) : WatermarksUpgrade release.watermarkTable := by
  have unkeyed : "last_ts" ∉ ["table_fqn"] := by decide
  refine ⟨rfl, unkeyed, Or.inr ⟨?_, rfl, ?_, upgradedKeys_nodup release⟩⟩
  · rintro key ⟨⟩
    rfl
  · intro row member
    rcases List.mem_map.mp member with ⟨entry, _, rfl⟩
    rw [upgradedKey_row]
    simp

theorem inTurn_chunkTable (release : FirstRelease) :
    (inTurn (((ddlFor "pipeline_chunk_state").map Change.guarded).map Guarded.change)
      (some release.chunkTable)).isSome = true := by
  have script : ((ddlFor "pipeline_chunk_state").map Change.guarded).map Guarded.change =
      [(Change.createTable chunkStateColumns
          { name := "pipeline_chunk_state_pkey", columns := ["run_id", "chunk_key"] }).exec,
        (Change.createIndex "pipeline_chunk_state_status_idx" ["run_id", "status"]).exec,
        (Change.addColumn (required "connection_id") (some (.number 1))).exec] := rfl
  have given : some (Cell.number 1) ≠ none := Option.some_ne_none _
  have indexed : (Change.createIndex "pipeline_chunk_state_status_idx" ["run_id", "status"]).exec
      (some release.chunkTable) = some (some release.chunkTable) := rfl
  rw [script, inTurn_cons_of_some (exec_createTable _ _ _), inTurn_cons_of_some indexed, inTurn_singleton,
    exec_addColumn (Or.inr given)]
  rfl

theorem applies (release : FirstRelease) : (apply release.database).isSome = true := by
  refine executeAll_isSome_iff.mpr (fun name => ?_)
  rw [changesAt_ddl]
  unfold FirstRelease.database
  split
  · exact (watermarks_upgrade_iff _).mpr (upgrades release)
  · exact inTurn_chunkTable release
  · rfl
  · exact inTurn_absent name

def FirstWatermark.upgraded (entry : FirstWatermark) : Row :=
  Function.update (Function.update entry.row "connection_id" (some (.number 1))) "last_value" none

theorem rows_widened (release : FirstRelease) :
    (widened release.watermarkTable).rows = release.watermarks.map FirstWatermark.upgraded := by
  have added : (widened release.watermarkTable).rows = ((release.watermarks.map FirstWatermark.row).map (fun row =>
      Function.update row "connection_id" (some (.number 1)))).map (fun row =>
        Function.update row "last_value" none) := rfl
  rw [added, List.map_map, List.map_map]
  rfl

theorem decode_upgraded (entry : FirstWatermark) :
    decode entry.upgraded = { lastValue := none, lastTs := some entry.lastTs, lastId := entry.lastId } :=
  rfl

theorem isRowOf_upgraded (entry : FirstWatermark) (connectionId : Int) (tableFqn : String) :
    isRowOf connectionId tableFqn entry.upgraded = true ↔ connectionId = 1 ∧ entry.tableFqn = tableFqn := by
  have compared : isRowOf connectionId tableFqn entry.upgraded =
      (some (Cell.number 1) == some (.number connectionId) &&
        some (Cell.text entry.tableFqn) == some (.text tableFqn)) := rfl
  rw [compared, Bool.and_eq_true, beq_iff_eq, beq_iff_eq]
  simp only [Option.some.injEq, Cell.number.injEq, Cell.text.injEq, eq_comm]

/-- Where `get_watermark` looks after the upgrade. -/
theorem stored_after {release : FirstRelease} {after : Database} (applied : apply release.database = some after)
    (connectionId : Int) (tableFqn : String) : stored after connectionId tableFqn =
      ((release.watermarks.map FirstWatermark.upgraded).find? (isRowOf connectionId tableFqn)).map decode := by
  have upgraded := apply_eq_some_iff.mp applied "pipeline_watermarks"
  rcases inTurn_grows upgraded with ⟨table, found, _⟩
  have rows := rows_upgraded (upgraded.trans (congrArg some found))
  unfold stored
  rw [found, ← rows_widened, ← rows]
  rfl

theorem stored_of_mem {release : FirstRelease} {after : Database} (applied : apply release.database = some after)
    {entry : FirstWatermark} (member : entry ∈ release.watermarks) : stored after 1 entry.tableFqn =
      some { lastValue := none, lastTs := some entry.lastTs, lastId := entry.lastId } := by
  rw [stored_after applied, List.find?_map]
  cases found : release.watermarks.find? (isRowOf 1 entry.tableFqn ∘ FirstWatermark.upgraded) with
  | none =>
      have missed := List.find?_eq_none.mp found entry member
      exact absurd ((isRowOf_upgraded entry 1 entry.tableFqn).mpr ⟨rfl, rfl⟩) missed
  | some other =>
      have chosen := List.find?_some found
      have sameName := ((isRowOf_upgraded other 1 entry.tableFqn).mp chosen).2
      have same := List.inj_on_of_nodup_map release.distinct (List.mem_of_find?_eq_some found) member sameName
      rw [same]
      exact congrArg some (decode_upgraded entry)

theorem stored_of_not_mem {release : FirstRelease} {after : Database} (applied : apply release.database = some after)
    {connectionId : Int} {tableFqn : String}
    (foreign : forall entry, entry ∈ release.watermarks -> connectionId = 1 -> entry.tableFqn ≠ tableFqn) :
    stored after connectionId tableFqn = none := by
  rw [stored_after applied, Option.map_eq_none_iff, List.find?_eq_none]
  intro row member present
  rcases List.mem_map.mp member with ⟨entry, listed, rfl⟩
  have matched := (isRowOf_upgraded entry connectionId tableFqn).mp present
  exact foreign entry listed matched.1 matched.2

/-- Every deployment of the first release is upgraded.  Its watermarks are then
read as those of connection 1, with the timestamp and the id that they had, and
every other connection and table starts from the default. -/
theorem first_release_upgraded (release : FirstRelease) : Exists fun after : Database =>
    apply release.database = some after ∧
      (forall (kind : WatermarkKind) (entry : FirstWatermark), entry ∈ release.watermarks ->
        getWatermark kind (stored after 1 entry.tableFqn) =
          some { value := (legacyValue kind (some entry.lastTs)).getD (defaultValue kind), lastId := entry.lastId }) ∧
      forall (kind : WatermarkKind) (connectionId : Int) (tableFqn : String),
        (forall entry, entry ∈ release.watermarks -> connectionId = 1 -> entry.tableFqn ≠ tableFqn) ->
          getWatermark kind (stored after connectionId tableFqn) =
            some { value := defaultValue kind, lastId := 0 } := by
  rcases Option.isSome_iff_exists.mp (applies release) with ⟨after, applied⟩
  refine ⟨after, applied, ?_, ?_⟩
  · intro kind entry member
    rw [stored_of_mem applied member]
    rfl
  · intro kind connectionId tableFqn foreign
    rw [stored_of_not_mem applied foreign]
    rfl

/-- No table, row or value is lost. -/
theorem apply_keeps_rows (database after : Database) (applied : apply database = some after) (name : String)
    (table : Table) (present : database name = some table) : Exists fun grown : Table => after name = some grown ∧
      (forall column, table.has column = true -> grown.has column = true) ∧
      List.Forall₂ (fun row kept : Row => forall column, table.has column = true -> kept column = row column)
        table.rows grown.rows := by
  have done := apply_eq_some_iff.mp applied name
  rw [present] at done
  exact inTurn_grows done

def sampleRelease : FirstRelease :=
  { watermarks := [{ tableFqn := "sales.orders", lastTs := epoch, lastId := 7, updatedAt := epoch }]
    distinct := List.nodup_singleton _
    chunks := []
    views := [] }

theorem sample_keeps_its_id : Exists fun after : Database => Exists fun grown : Table => Exists fun row : Row =>
    apply sampleRelease.database = some after ∧ after "pipeline_watermarks" = some grown ∧ grown.rows = [row] ∧
      row "last_id" = some (.number 7) := by
  rcases Option.isSome_iff_exists.mp (applies sampleRelease) with ⟨after, applied⟩
  rcases apply_keeps_rows _ after applied "pipeline_watermarks" sampleRelease.watermarkTable rfl with
    ⟨grown, found, _, rows⟩
  rcases List.forall₂_cons_left_iff.mp rows with ⟨row, rest, kept, none, same⟩
  rw [List.forall₂_nil_left_iff.mp none] at same
  exact ⟨after, grown, row, applied, found, same, kept "last_id" rfl⟩

end Migrations
end WarehouseSync

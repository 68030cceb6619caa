import WarehouseSync.Gateway.Auth
import WarehouseSync.Library.PythonText
import WarehouseSync.State.Chunks
import WarehouseSync.State.Watermarks
import Mathlib.Logic.Function.Basic

namespace WarehouseSync
namespace ConfigStore

open Auth Chunks

/-!
# What the gateway stores (`common/config_store.py`)

The metadata database holds the connections with everything that is keyed by
them, the API tokens, the users and the settings; the catalog and S3 hold the
lake.  A store that is keyed by text is a function.  Constraint violations of
the database are errors that leave it as it was.
-/

/-- A row of the connections, with its secrets as they are used.  How they are
stored is the subject of another module. -/
structure Connection where
  id : Int
  name : String
  enabled : Bool
  sourceDsn : String
  awsAccessKey : Option String
  awsSecretKey : Option String
  awsRegion : String
  lakeBucket : String
  icebergNamespace : String
  syncInclude : String
  syncExclude : String
  syncObjectTypes : String
  syncSchemaBlacklist : String
deriving DecidableEq, Repr

structure SelectionRow where
  connectionId : Int
  schema : String
  name : String
  kind : String
  enabled : Bool
deriving DecidableEq, Repr

/-- The text under which a selected object is looked up.  The row has the two names
apart, while the text does not say where the first ends. -/
def SelectionRow.fqn (row : SelectionRow) : String :=
  row.schema ++ "." ++ row.name

structure WatermarkRow where
  connectionId : Int
  tableFqn : String
  row : Watermarks.Row
deriving DecidableEq

structure User where
  role : String
  enabled : Bool
deriving DecidableEq, Repr

/-- An object in S3; its content is only compared. -/
structure S3Object where
  bucket : String
  key : String
  content : String
deriving DecidableEq, Repr

/-- A table of the catalog, by the objects its metadata and data are in.  They lie
in the bucket that the connection had when they were written. -/
structure CatalogTable where
  namespaceName : String
  name : String
  files : List (String × String)
deriving DecidableEq, Repr

inductive Mode where
  | bootstrap
  | incremental
  | reconcile
deriving DecidableEq, Repr

/-- A run that Dagster was asked to launch, with its `connection` tag, by which a
wipe finds it again. -/
structure LaunchedRun where
  runId : Nat
  connectionId : Int
  tableFqn : String
  mode : Mode
deriving DecidableEq, Repr

/-- Everything that requests to the gateway read and change: the tables of the
metadata database, the catalog, the objects in S3 and the runs of Dagster.  It is
one record so that a frame condition can speak of all of them. -/
structure Store where
  connections : List Connection
  nextConnectionId : Int
  selection : List SelectionRow
  watermarks : List WatermarkRow
  chunkState : List ChunkRecord
  tokens : List ApiToken
  nextTokenId : Nat
  users : String -> Option User
  settings : String -> Option String
  catalog : List CatalogTable
  objects : List S3Object
  runs : List LaunchedRun
  nextRunId : Nat

namespace Store

def getConnection (store : Store) (connectionId : Int) : Option Connection :=
  store.connections.find? (fun conn => decide (conn.id = connectionId))

/-- The columns an upsert of a connection sets.  The id is given by the database,
and the globs have a type of their own where they matter. -/
structure ConnectionColumns where
  name : String
  enabled : Bool
  sourceDsn : String
  awsAccessKey : Option String
  awsSecretKey : Option String
  awsRegion : String
  lakeBucket : String
  icebergNamespace : String
deriving DecidableEq, Repr

/-- The row of a connection; the sync globs are reset to their defaults. -/
def ConnectionColumns.row (columns : ConnectionColumns) (id : Int) : Connection :=
  { id := id, name := columns.name, enabled := columns.enabled, sourceDsn := columns.sourceDsn
    awsAccessKey := columns.awsAccessKey, awsSecretKey := columns.awsSecretKey
    awsRegion := columns.awsRegion, lakeBucket := columns.lakeBucket
    icebergNamespace := columns.icebergNamespace, syncInclude := "", syncExclude := ""
    syncObjectTypes := "TABLE,VIEW,MATERIALIZED_VIEW"
    syncSchemaBlacklist := "pg_catalog,information_schema,pg_toast" }

/-- Name and namespace are unique among the connections of other ids.  Both are
unique constraints of the table, so a violation fails the statement. -/
def unused (store : Store) (columns : ConnectionColumns) (id : Option Int) : Bool :=
  store.connections.all (fun conn => decide (id = some conn.id) ||
    (conn.name != columns.name && conn.icebergNamespace != columns.icebergNamespace))

/-- The `INSERT` of `upsert_connection`. -/
def insertConnection (store : Store) (columns : ConnectionColumns) : Option Store :=
  if store.unused columns none = true then
    some { store with
      connections := store.connections ++ [columns.row store.nextConnectionId]
      nextConnectionId := store.nextConnectionId + 1 }
  else none

/-- The row after an update; secrets left out keep their value.  Rows of other ids
are as before. -/
def ConnectionColumns.update (columns : ConnectionColumns) (id : Int) (conn : Connection) : Connection :=
  if conn.id = id then
    { columns.row id with
      awsAccessKey := columns.awsAccessKey.orElse (fun _ => conn.awsAccessKey)
      awsSecretKey := columns.awsSecretKey.orElse (fun _ => conn.awsSecretKey) }
  else conn

/-- The `UPDATE` of `upsert_connection`. -/
def updateConnection (store : Store) (id : Int) (columns : ConnectionColumns) : Option Store :=
  if store.unused columns (some id) = true then
    some { store with connections := store.connections.map (columns.update id) }
  else none

/-- `delete_connection`; the selection is deleted with it.  Watermarks, tokens and
lake tables of the connection stay, under an id that is not given again. -/
def deleteConnection (store : Store) (id : Int) : Store :=
  { store with
    connections := store.connections.filter (fun conn => decide (conn.id ≠ id))
    selection := store.selection.filter (fun row => decide (row.connectionId ≠ id)) }

/-- `set_selection`, with the foreign key and the primary key of the table.  The old
rows of the connection are replaced in the same transaction. -/
def setSelection (store : Store) (id : Int) (items : List SelectionRow) : Option Store :=
  let rows := items.map (fun item => { item with connectionId := id })
  if (store.getConnection id).isNone && !items.isEmpty then none
  else if (rows.map (fun row => (row.schema, row.name))).Nodup then
    some { store with
      selection := store.selection.filter (fun row => decide (row.connectionId ≠ id)) ++ rows }
  else none

/-- `get_selection`, without the order of the rows. -/
def getSelection (store : Store) (id : Int) : List SelectionRow :=
  store.selection.filter (fun row => decide (row.connectionId = id))

/-- `enabled_fqns`; a connection without rows has no selection at all.  With rows of
which none is enabled it has an empty one. -/
def enabledFqns (store : Store) (id : Int) : Option (List String) :=
  match store.getSelection id with
  | [] => none
  | rows => some ((rows.filter (fun row => row.enabled)).map (fun row => row.fqn))

def setSetting (store : Store) (key value : String) : Store :=
  { store with settings := Function.update store.settings key (some value) }

/-- The roles a row can have: everything other than admin is viewer. -/
def storedRole (role : String) : String :=
  if role = "admin" then "admin" else "viewer"

/-- `create_api_token` with the random part of the token; hashes are unique.  The
row does not have to be for a connection that exists. -/
def createApiToken (store : Store) (hash : String -> String) (name email : String) (connectionId : Int)
    (role secret : String) : Option Store :=
  let token := "vmt_" ++ secret
  if store.tokens.any (fun row => row.tokenHash == hash token) = true then none
  else
    some { store with
      tokens := store.tokens ++ [
        { id := store.nextTokenId, name := name, email := email, connectionId := connectionId
          role := storedRole role, tokenHash := hash token
          tokenPrefix := String.ofList (token.toList.take 12), revoked := false }]
      nextTokenId := store.nextTokenId + 1 }

def revokeApiToken (store : Store) (tokenId : Nat) : Store :=
  { store with
    tokens := store.tokens.map (fun row => if row.id = tokenId then { row with revoked := true } else row) }

/-- `email.strip().lower()`, the spelling under which a user is kept.  Both are
those of Python, so blanks and letters outside of ASCII count as well. -/
def normalEmail (email : String) : String :=
  PythonText.lower (String.ofList (PythonText.strip email.toList))

def upsertUser (store : Store) (email role : String) (enabled : Bool) : Store :=
  { store with
    users := Function.update store.users (normalEmail email)
      (some { role := storedRole role, enabled := enabled }) }

def deleteUser (store : Store) (email : String) : Store :=
  { store with users := Function.update store.users (normalEmail email) none }

/-- `drop_all_tables`: every catalog entry of the namespace.  Objects in S3 are not
touched, the wipe deletes them by their prefixes. -/
def dropAllTables (store : Store) (conn : Connection) : Store :=
  { store with
    catalog := store.catalog.filter (fun table => decide (table.namespaceName ≠ conn.icebergNamespace)) }

def wipedPrefixes : List String :=
  ["raw/", "curated/", "gateway-results/"]

/-- The object is under a wiped prefix of the connection's bucket.  The prefixes do
not have the connection in them, so a bucket that is shared is emptied for all. -/
def wipes (conn : Connection) (bucket key : String) : Bool :=
  bucket == conn.lakeBucket && wipedPrefixes.any (fun start => start.toList.isPrefixOf key.toList)

/-- `delete_prefix` for the three prefixes; a deletion that fails is only logged,
and the objects it did not get to stay. -/
def deletePrefixes (store : Store) (conn : Connection) (failed : List (String × String)) : Store :=
  { store with
    objects := store.objects.filter (fun object =>
      !wipes conn object.bucket object.key || failed.contains (object.bucket, object.key)) }

/-- The two `DELETE`s of a wipe.  They go by the id of the connection, so they
cannot meet rows of another one. -/
def deleteState (store : Store) (id : Int) : Store :=
  { store with
    watermarks := store.watermarks.filter (fun row => decide (row.connectionId ≠ id))
    chunkState := store.chunkState.filter (fun record => decide (record.connectionId ≠ id)) }

/-- `delete_runs`, by the tag; runs that Dagster does not delete stay. -/
def deleteRuns (store : Store) (id : Int) (undeleted : List Nat) : Store :=
  { store with
    runs := store.runs.filter (fun run => decide (run.connectionId ≠ id) || undeleted.contains run.runId) }

/-! ## What a statement that succeeds leaves behind -/

variable {store after : Store}

theorem getConnection_eq_some {id : Int} {conn : Connection} (found : store.getConnection id = some conn) :
    conn ∈ store.connections ∧ conn.id = id := by
  unfold getConnection at found
  have matched := List.find?_some found
  exact ⟨List.mem_of_find?_eq_some found, of_decide_eq_true matched⟩

theorem insertConnection_eq_some {columns : ConnectionColumns}
    (done : store.insertConnection columns = some after) :
    store.unused columns none = true ∧
      after = { store with
        connections := store.connections ++ [columns.row store.nextConnectionId]
        nextConnectionId := store.nextConnectionId + 1 } := by
  unfold insertConnection at done
  split at done
  · rename_i free
    cases done
    exact ⟨free, rfl⟩
  · cases done

theorem updateConnection_eq_some {id : Int} {columns : ConnectionColumns}
    (done : store.updateConnection id columns = some after) :
    store.unused columns (some id) = true ∧
      after = { store with connections := store.connections.map (columns.update id) } := by
  unfold updateConnection at done
  split at done
  · rename_i free
    cases done
    exact ⟨free, rfl⟩
  · cases done

theorem ConnectionColumns.id_update (columns : ConnectionColumns) (id : Int) (conn : Connection) :
    (columns.update id conn).id = conn.id := by
  unfold ConnectionColumns.update
  split
  · rename_i same
    exact same.symm
  · rfl

/-- An update looks at one connection, and changes no id. -/
theorem getConnection_updateConnection {id : Int} {columns : ConnectionColumns}
    (done : store.updateConnection id columns = some after) (other : Int) :
    after.getConnection other = (store.getConnection other).map (columns.update id) := by
  rcases updateConnection_eq_some done with ⟨_, rfl⟩
  have sameIds : (fun conn : Connection => decide (conn.id = other)) ∘ columns.update id =
      fun conn => decide (conn.id = other) := by
    funext conn
    rw [Function.comp_apply, columns.id_update]
  rw [getConnection, List.find?_map, sameIds]
  rfl

theorem setSelection_eq_some {id : Int} {items : List SelectionRow}
    (done : store.setSelection id items = some after) :
    after = { store with
      selection := store.selection.filter (fun row => decide (row.connectionId ≠ id)) ++
        items.map (fun item => { item with connectionId := id }) } := by
  unfold setSelection at done
  simp only at done
  split at done
  · cases done
  · split at done
    · cases done
      rfl
    · cases done

theorem createApiToken_eq_some {hash : String -> String} {name email role secret : String}
    {connectionId : Int} (done : store.createApiToken hash name email connectionId role secret = some after) :
    (forall row, row ∈ store.tokens -> row.tokenHash ≠ hash ("vmt_" ++ secret)) ∧
      Exists fun row : ApiToken => row.connectionId = connectionId ∧
        after = { store with tokens := store.tokens ++ [row], nextTokenId := store.nextTokenId + 1 } := by
  unfold createApiToken at done
  simp only at done
  split at done
  · cases done
  · rename_i unusedHash
    cases done
    refine ⟨?_, _, rfl, rfl⟩
    intro row member same
    exact unusedHash (List.any_eq_true.mpr ⟨row, member, beq_iff_eq.mpr same⟩)

end Store
end ConfigStore
end WarehouseSync

import WarehouseSync.Gateway.App
import WarehouseSync.Gateway.SqlGuard

namespace WarehouseSync
namespace ReadEndpoints

open App Auth ConfigStore SqlGuard

/-!
# What the reading endpoints answer (`gateway/app.py`)

An answer is a function of the principal, the request and the state that the
gateway reads: the store, the sync status, what discovery finds in the sources,
the runs that Dagster knows, the views in DuckDB, and the submitted queries.
Ids and timestamps that a request generates are left out of the answers.
-/

/-- The components of a DSN, as `parse_dsn` returns them. -/
structure DsnParts where
  host : String
  port : Int
  dbName : String
  user : String
  password : String
  sslmode : String
deriving DecidableEq, Repr

structure ObjectState where
  connectionId : Int
  tableFqn : String
  lastSyncedAt : Option String
  lastKind : Option String
  lastRows : Option Int
deriving DecidableEq, Repr

/-- A run with the tags that the gateway looks at. -/
structure DagsterRun where
  runId : String
  status : String
  jobName : String
  startTime : Option String
  endTime : Option String
  connectionTag : Option Int
  tableTag : Option String
  kindTag : Option String
deriving DecidableEq, Repr

/-- A view of a lake table, with what a query finds in it. -/
structure View where
  schema : String
  name : String
  content : String
deriving DecidableEq, Repr

structure Job where
  sql : String
  principalSub : String
  status : String
  rows : Option Int
  bytesScanned : Option Int
  resultS3Uri : Option String
  error : Option String
deriving DecidableEq, Repr

structure ListedObject where
  schema : String
  name : String
  kind : String
  supportsIncremental : Bool
deriving DecidableEq, Repr

def ListedObject.fqn (object : ListedObject) : String :=
  object.schema ++ "." ++ object.name

/-- Everything that the reading endpoints look at.  `sources` is what discovery
finds for a connection, or the error; views and jobs are those of the process. -/
structure State where
  store : Store
  objectState : List ObjectState
  sources : Int -> Except String (List ListedObject)
  runs : List DagsterRun
  views : List View
  jobs : String -> Option Job

/-- What the settings say about queries. -/
structure QuerySettings where
  allowedSchemas : List String
  defaultRowLimit : Option Int
  maxRowLimit : Option Int
  adminUnrestricted : Bool
deriving DecidableEq, Repr

/-- A statement that DuckDB is to run: as it came, or as the guard returned it.  The
distinction is kept because only an admin's may come unguarded. -/
inductive Statement where
  | raw (sql : String)
  | guarded (stmt : Node)

/-- A result with its values as the answer shows them. -/
structure QueryResult where
  columns : List String
  columnTypes : List String
  rows : List (List String)
deriving DecidableEq, Repr

/-- The libraries that an answer depends on.  `execute` has the greatest number of
rows to fetch as well.  Nothing is assumed of them here; results that need a law
name it. -/
structure Outside where
  parseDsn : String -> DsnParts
  parseSql : String -> Except String (List (Option Node))
  shownSetting : (String -> Option String) -> String -> String
  querySettings : (String -> Option String) -> QuerySettings
  execute : List View -> Statement -> Nat -> Except String QueryResult
  presignedUrl : Connection -> String -> String

inductive Read where
  | health
  | ready
  | ui
  | listConnections
  | connectionObjects (connectionId : Int)
  | getSelection (connectionId : Int)
  | readSettings
  | listTokens
  | listUsers
  | connectionSyncStatus (connectionId : Int)
  | listRuns (connectionId : Int)
  | getRun (runId : String)
  | listTables
  | runQuerySync (sql : String) (limit : Nat)
  | submitQuery (sql : String)
  | queryStatus (jobId : String)
deriving DecidableEq, Repr

/-- `public_dict`: a connection as it is shown, with the parts of its DSN but not
the password, and with its keys masked. -/
structure PublicConnection where
  id : Int
  name : String
  enabled : Bool
  dbHost : String
  dbPort : Int
  dbName : String
  dbUser : String
  dbSslmode : String
  awsAccessKey : Option String
  awsSecretKey : Option String
  awsRegion : String
  lakeBucket : String
  icebergNamespace : String
deriving DecidableEq, Repr

/-- A row of `list_api_tokens`; the hash is not shown. -/
structure ShownToken where
  id : Nat
  name : String
  email : String
  connectionId : Int
  role : String
  tokenPrefix : String
  revoked : Bool
deriving DecidableEq, Repr

structure ShownObject where
  schema : String
  name : String
  kind : String
  selected : Bool
  incremental : Bool
deriving DecidableEq, Repr

structure ShownRun where
  runId : String
  status : String
  jobName : String
  startTime : Option String
  table : String
  kind : String
deriving DecidableEq, Repr

structure ShownTables where
  id : Int
  name : String
  icebergNamespace : String
  tables : List String
deriving DecidableEq, Repr

/-- The body of an answer, with all that it tells.  Answers are compared as a whole,
so nothing that is shown may be left out. -/
inductive Answer where
  | page (text : String)
  | connections (shown : List PublicConnection)
  | objects (shown : List ShownObject)
  | selection (rows : List (String × String × String × Bool))
  | settings (values : List (String × String))
  | tokens (shown : List ShownToken)
  | users (rows : String -> Option User)
  | objectStates (rows : List (String × Option String × Option String × Option Int))
  | runs (shown : List ShownRun)
  | run (found : Option (String × String × Option String × Option String))
  | tables (shown : List ShownTables)
  | result (result : QueryResult) (rowCount : Nat) (truncated statementOk : Bool)
  | submitted (status : String)
  | job (status : String) (rows bytesScanned : Option Int) (error resultSignedUrl : Option String)

/-! ## The endpoints -/

/-- `_mask`: the last four characters of a secret that has more than these. -/
def mask (secret : Option String) : Option String :=
  match secret with
  | none | some "" => secret
  | some text =>
      let tail := if 4 < text.length then String.ofList (text.toList.drop (text.length - 4)) else ""
      some ("********" ++ tail)

def publicDict (env : Outside) (conn : Connection) : PublicConnection :=
  let parts := env.parseDsn conn.sourceDsn
  { id := conn.id, name := conn.name, enabled := conn.enabled, dbHost := parts.host, dbPort := parts.port
    dbName := parts.dbName, dbUser := parts.user, dbSslmode := parts.sslmode
    awsAccessKey := mask conn.awsAccessKey
    awsSecretKey := (nonblank conn.awsSecretKey).map (fun _ => "********")
    awsRegion := conn.awsRegion, lakeBucket := conn.lakeBucket, icebergNamespace := conn.icebergNamespace }

def enabledConnections (state : State) : List Connection :=
  state.store.connections.filter (fun conn => conn.enabled)

def connectionObjects (state : State) (connectionId : Int) : Except Rejection Answer :=
  match state.store.getConnection connectionId with
  | none => .error (.http 404 "connection not found")
  | some _ =>
      match state.sources connectionId with
      | .error message => .error (.http 400 ("discovery failed: " ++ message))
      | .ok objects =>
          let selected := state.store.enabledFqns connectionId
          .ok (.objects (objects.map (fun object =>
            { schema := object.schema, name := object.name, kind := object.kind
              selected := match selected with
                | none => true
                | some fqns => fqns.contains object.fqn
              incremental := object.supportsIncremental })))

def getSelection (state : State) (connectionId : Int) : Answer :=
  .selection ((state.store.getSelection connectionId).map (fun row =>
    (row.schema, row.name, row.kind, row.enabled)))

def readSettings (env : Outside) (state : State) : Answer :=
  .settings (editableSettingKeys.map (fun key => (key, env.shownSetting state.store.settings key)))

/-- `list_api_tokens`, the newest first. -/
def listTokens (state : State) : Answer :=
  .tokens (state.store.tokens.reverse.map (fun row =>
    { id := row.id, name := row.name, email := row.email, connectionId := row.connectionId, role := row.role
      tokenPrefix := row.tokenPrefix, revoked := row.revoked }))

/-- `get_object_state`. -/
def connectionSyncStatus (state : State) (connectionId : Int) : Answer :=
  .objectStates ((state.objectState.filter (fun row => decide (row.connectionId = connectionId))).map (fun row =>
    (row.tableFqn, row.lastSyncedAt, row.lastKind, row.lastRows)))

/-- `recent_runs`; Dagster lists the newest runs first. -/
def listRuns (state : State) (connectionId : Int) : Answer :=
  .runs (((state.runs.filter (fun run => decide (run.connectionTag = some connectionId))).take 25).map (fun run =>
    { runId := run.runId, status := run.status, jobName := run.jobName, startTime := run.startTime
      table := run.tableTag.getD "", kind := run.kindTag.getD "" }))

/-- `run_status`. -/
def getRun (state : State) (runId : String) : Answer :=
  .run ((state.runs.find? (fun run => decide (run.runId = runId))).map (fun run =>
    (run.runId, run.status, run.startTime, run.endTime)))

def listTables (state : State) : Answer :=
  .tables ((enabledConnections state).map (fun conn =>
    { id := conn.id, name := conn.name, icebergNamespace := conn.icebergNamespace
      tables := ((state.views.filter (fun view => view.schema == conn.icebergNamespace)).map
        (fun view => view.name)).insertionSort (· ≤ ·) }))

/-- `_guard_for`.  A token may only read the namespace of its connection, everyone
else those of all enabled connections and what the settings add. -/
def guardFor (env : Outside) (principal : Principal) (state : State) : GuardConfig :=
  let settings := env.querySettings state.store.settings
  { allowedSchemas := match principal.connectionId with
      | none => settings.allowedSchemas ++ (enabledConnections state).map Connection.icebergNamespace
      | some connectionId =>
          match state.store.getConnection connectionId with
          | none => []
          | some conn => if conn.icebergNamespace = "" then [] else [conn.icebergNamespace]
    defaultRowLimit := settings.defaultRowLimit
    maxRowLimit := settings.maxRowLimit }

/-- `_prepare_sql`.  An administrator without a connection is not guarded at all,
when the settings say so. -/
def prepareSql (env : Outside) (principal : Principal) (state : State) (sql : String) : Except String Statement :=
  if principal.isAdmin = true ∧ principal.connectionId = none ∧
      (env.querySettings state.store.settings).adminUnrestricted = true then
    .ok (.raw sql)
  else ((guardFor env principal state).guard (env.parseSql sql)).map .guarded

def runQuerySync (env : Outside) (principal : Principal) (state : State) (sql : String) (limit : Nat) :
    Except Rejection Answer :=
  match prepareSql env principal state sql with
  | .error message => .error (.http 400 message)
  | .ok statement =>
      match env.execute state.views statement limit with
      | .error message => .error (.http 400 message)
      | .ok result => .ok (.result result result.rows.length (decide (limit ≤ result.rows.length))
          result.columns.isEmpty)

def submitQuery (env : Outside) (principal : Principal) (state : State) (sql : String) :
    Except Rejection Answer :=
  match prepareSql env principal state sql with
  | .error message => .error (.http 400 message)
  | .ok _ => .ok (.submitted "PENDING")

/-- `result_signed_url`, with the credentials of the first enabled connection. -/
def resultSignedUrl (env : Outside) (state : State) (job : Job) : Except Rejection (Option String) :=
  match nonblank job.resultS3Uri with
  | none => .ok none
  | some uri =>
      match (enabledConnections state).head? with
      | none => .error (.unhandled "no enabled connection available to store query results")
      | some conn => .ok (some (env.presignedUrl conn uri))

/-- The status of a job for whoever has submitted it.  Two requests of one token are
of one principal, so its jobs are its own. -/
def queryStatus (env : Outside) (principal : Principal) (state : State) (jobId : String) :
    Except Rejection Answer :=
  match state.jobs jobId with
  | none => .error (.http 404 "job not found")
  | some job =>
      if job.principalSub ≠ principal.sub then .error (.http 403 "not your job")
      else
        match if job.status = "SUCCEEDED" then resultSignedUrl env state job else .ok none with
        | .error rejection => .error rejection
        | .ok url => .ok (.job job.status job.rows job.bytesScanned job.error url)

/-- The endpoint behind its guards.  It changes nothing, so it is a function of the
state, and answers in two states can be compared. -/
def respond (env : Outside) (principal : Principal) (state : State) : Read -> Except Rejection Answer
  | .health => .ok (.page "ok")
  | .ready => .ok (.page "ready")
  | .ui => .ok (.page "ui")
  | .listConnections => .ok (.connections (state.store.connections.map (publicDict env)))
  | .connectionObjects connectionId => connectionObjects state connectionId
  | .getSelection connectionId => .ok (getSelection state connectionId)
  | .readSettings => .ok (readSettings env state)
  | .listTokens => do
      requireAdmin principal
      return listTokens state
  | .listUsers => do
      requireAdmin principal
      return .users state.store.users
  | .connectionSyncStatus connectionId => do
      enforceConnectionScope principal connectionId
      return connectionSyncStatus state connectionId
  | .listRuns connectionId => .ok (listRuns state connectionId)
  | .getRun runId => .ok (getRun state runId)
  | .listTables => .ok (listTables state)
  | .runQuerySync sql limit => runQuerySync env principal state sql limit
  | .submitQuery sql => submitQuery env principal state sql
  | .queryStatus jobId => queryStatus env principal state jobId

end ReadEndpoints
end WarehouseSync

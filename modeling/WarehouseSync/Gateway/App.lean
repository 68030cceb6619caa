import WarehouseSync.Gateway.ConfigStore
import WarehouseSync.Library.Checks

namespace WarehouseSync
namespace App

open Auth Checks ConfigStore

/-!
# The endpoints of the gateway (`gateway/app.py`)

Every endpoint that changes something, with its guards, its checks and its
errors, as a function of the principal and the store.  An endpoint that is
rejected leaves the store as it was.  What the outside answers while a request
is handled (the source database, S3, Dagster) comes with the request.
-/

/-- The body of a request that creates or updates a connection.  A secret that is
left out or blank keeps what is stored, so such a body says less than the row it
leads to. -/
structure ConnectionIn where
  name : String
  enabled : Bool
  dbHost : Option String
  dbPort : Int
  dbName : Option String
  dbUser : Option String
  dbPassword : Option String
  dbSslmode : String
  awsAccessKey : Option String
  awsSecretKey : Option String
  awsRegion : String
  lakeBucket : String
  icebergNamespace : String
deriving DecidableEq, Repr

structure SelectionItem where
  schema : String
  name : String
  kind : String
  enabled : Bool
deriving DecidableEq, Repr

/-- The body of `POST /settings`, a dictionary.  Its keys are distinct, as those of
a JSON object are once it is read. -/
structure SettingValues where
  entries : List (String × String)
  keysOnce : (entries.map Prod.fst).Nodup

structure TokenIn where
  name : String
  email : String
  connectionId : Int
  role : String
deriving DecidableEq, Repr

structure UserIn where
  email : String
  role : String
  enabled : Bool
deriving DecidableEq, Repr

structure RunLaunch where
  connectionId : Int
  tableFqn : String
  mode : Mode
deriving DecidableEq, Repr

/-- The endpoints that only read.  They take part because their guards do; what they
return is the subject of other modules. -/
inductive Reading where
  | listConnections
  | testConnection
  | connectionObjects (connectionId : Int)
  | getSelection (connectionId : Int)
  | readSettings
  | listTokens
  | listUsers
  | connectionSyncStatus (connectionId : Int)
  | listRuns (connectionId : Int)
  | getRun (runId : String)
  | listTables
  | query (sql : String)
deriving DecidableEq, Repr

/-- The endpoints of the gateway with what a request gives each of them.  One type
for all of them is what lets a statement be about every request. -/
inductive Call where
  | read (reading : Reading)
  | createConnection (body : ConnectionIn)
  | updateConnection (connectionId : Int) (body : ConnectionIn)
  | deleteConnection (connectionId : Int)
  | wipeConnection (connectionId : Int)
  | setSelection (connectionId : Int) (items : List SelectionItem)
  | writeSettings (values : SettingValues)
  | createToken (body : TokenIn)
  | revokeToken (tokenId : Nat)
  | upsertUser (body : UserIn)
  | deleteUser (email : String)
  | launchRun (body : RunLaunch)

/-- What the libraries and services answer during one request.  They are given
beforehand, so a handler is a function of its request, of the stored rows and of
these. -/
structure Answers where
  /-- libpq's reading of the password in a stored DSN -/
  dsnPassword : String -> String
  testDb : String -> Option String
  ensureBucket : Option String -> Option String -> String -> String -> Option String
  /-- the objects that the deletions of a wipe did not get to -/
  undeletedObjects : List (String × String)
  undeletedRuns : List Nat
  /-- the random part of a new token -/
  secret : String
  launchError : Option String

/-- `value or …`: a blank text counts as missing. -/
def nonblank (value : Option String) : Option String :=
  value.filter (fun text => text != "")

/-- `urllib.parse.quote` with no safe characters, byte by byte of the UTF-8.  Only
letters, digits and four more characters stand for themselves. -/
def quote (text : String) : String :=
  String.ofList (text.toUTF8.toList.flatMap (fun byte =>
    let char := Char.ofNat byte.toNat
    if byte.toNat < 128 && (char.isAlphanum || ['_', '.', '-', '~'].contains char) then [char]
    else '%' :: (Nat.toDigits 16 (256 + byte.toNat)).tail.map Char.toUpper))

/-- The DSN of a body.  User and password are quoted, while host, name and mode are
put in as they are. -/
def buildDsn (body : ConnectionIn) (password : String) : String :=
  "postgresql://" ++ quote (body.dbUser.getD "") ++ ":" ++ quote password ++ "@" ++ body.dbHost.getD "" ++
    ":" ++ toString body.dbPort ++ "/" ++ body.dbName.getD "" ++ "?sslmode=" ++ body.dbSslmode

/-- The DSN and the AWS keys; blank fields keep what is stored.  The stored password
comes out of the stored DSN, as it is not kept by itself. -/
def resolveSecrets (answers : Answers) (body : ConnectionIn) (existing : Option Connection) :
    String × Option String × Option String :=
  let password := (nonblank body.dbPassword).getD
    ((existing.map (fun conn => answers.dsnPassword conn.sourceDsn)).getD "")
  (buildDsn body password,
    (nonblank body.awsAccessKey).orElse (fun _ => existing.bind Connection.awsAccessKey),
    (nonblank body.awsSecretKey).orElse (fun _ => existing.bind Connection.awsSecretKey))

/-- `_validate_or_400`, with the columns that are stored when it passes.  The
database is tried before the bucket, and the bucket is created by the check if it is
missing. -/
def validateOr400 (answers : Answers) (body : ConnectionIn) (existing : Option Connection) :
    Except Rejection Store.ConnectionColumns :=
  let (dsn, accessKey, secretKey) := resolveSecrets answers body existing
  match answers.testDb dsn with
  | some message => .error (.http 400 ("database test failed: " ++ message))
  | none =>
      if body.lakeBucket = "" then .error (.http 400 "lake_bucket is required")
      else
        match answers.ensureBucket accessKey secretKey body.awsRegion body.lakeBucket with
        | some message => .error (.http 400 ("AWS/bucket setup failed: " ++ message))
        | none => .ok
            { name := body.name, enabled := body.enabled, sourceDsn := dsn, awsAccessKey := accessKey
              awsSecretKey := secretKey, awsRegion := body.awsRegion, lakeBucket := body.lakeBucket
              icebergNamespace := body.icebergNamespace }

/-- An `Option` of the store as the outcome of an endpoint. -/
def orFail (rejection : Rejection) : Option Store -> Except Rejection Store
  | some store => .ok store
  | none => .error rejection

/-- The fields that only a new connection must bring, then the checks.  An update
can leave them out because there is something to keep. -/
def newColumns (answers : Answers) (body : ConnectionIn) : Except Rejection Store.ConnectionColumns :=
  if ([body.dbHost, body.dbName, body.dbUser, body.dbPassword].all
      (fun field => (nonblank field).isSome)) = false then
    .error (.http 400 "db_host, db_name, db_user and db_password are required")
  else if ([body.awsAccessKey, body.awsSecretKey].all (fun field => (nonblank field).isSome)) = false then
    .error (.http 400 "AWS access key and secret are required")
  else validateOr400 answers body none

def createConnection (answers : Answers) (body : ConnectionIn) (store : Store) :
    Except Rejection Store := do
  let columns ← newColumns answers body
  orFail (.unhandled "UniqueViolation") (store.insertConnection columns)

/-- The update of a connection that exists.  The checks run with the secrets that
will be stored, so a connection that is saved has worked once. -/
def updateConnection (answers : Answers) (connectionId : Int) (body : ConnectionIn) (store : Store) :
    Except Rejection Store :=
  match store.getConnection connectionId with
  | none => .error (.http 404 "connection not found")
  | some existing => do
      let columns ← validateOr400 answers body (some existing)
      orFail (.unhandled "UniqueViolation") (store.updateConnection connectionId columns)

/-- The record and the selection of the connection stay.  The steps are one request
but no transaction, and a deletion that fails does not stop the others. -/
def wipeConnection (answers : Answers) (connectionId : Int) (store : Store) : Except Rejection Store :=
  match store.getConnection connectionId with
  | none => .error (.http 404 "connection not found")
  | some conn => .ok ((((store.dropAllTables conn).deletePrefixes conn answers.undeletedObjects).deleteState
      connectionId).deleteRuns connectionId answers.undeletedRuns)

/-- The selection as the body gives it, under the connection of the path.  A second
item with the same names violates the primary key. -/
def setSelection (connectionId : Int) (items : List SelectionItem) (store : Store) :
    Except Rejection Store :=
  orFail (.unhandled "IntegrityError") (store.setSelection connectionId (items.map (fun item =>
    { connectionId := connectionId, schema := item.schema, name := item.name, kind := item.kind
      enabled := item.enabled })))

/-- `EDITABLE_SETTING_KEYS`. -/
def editableSettingKeys : List String :=
  ["extract_rows_per_chunk", "extract_row_group_rows", "parquet_compression", "parquet_compression_level",
    "incremental_overlap_seconds", "incremental_safety_gap_seconds", "iceberg_catalog_name", "aws_region",
    "gateway_jwt_audience", "gateway_jwt_issuer", "gateway_jwks_url", "gateway_max_bytes_scanned",
    "gateway_query_timeout_seconds", "gateway_allowed_schemas", "gateway_view_refresh_seconds",
    "gateway_default_row_limit", "gateway_max_row_limit", "gateway_admin_sql_unrestricted",
    "sync_drop_removed_columns", "log_level"]

/-- One entry of the body.  A key that is not editable is passed over, so what it
says is never stored. -/
def writeSetting (store : Store) (entry : String × String) : Store :=
  if editableSettingKeys.contains entry.1 = true then store.setSetting entry.1 entry.2 else store

/-- Keys that are not editable are passed over without an error. -/
def writeSettings (values : SettingValues) (store : Store) : Store :=
  values.entries.foldl writeSetting store

/-- A token is made for the connection of the body, if there is one; the caller's
own scope is not compared with it. -/
def createToken (services : Services) (answers : Answers) (body : TokenIn) (store : Store) :
    Except Rejection Store :=
  match store.getConnection body.connectionId with
  | none => .error (.http 404 "connection not found")
  | some _ => orFail (.unhandled "UniqueViolation")
      (store.createApiToken services.hash body.name body.email body.connectionId body.role answers.secret)

/-- A run is launched whether or not the connection and the table exist.  The job
finds out for itself, and fails then. -/
def launchRun (answers : Answers) (body : RunLaunch) (store : Store) : Except Rejection Store :=
  match answers.launchError with
  | some message => .error (.http 502 ("failed to launch run: " ++ message))
  | none => .ok { store with
      runs := store.runs ++ [
        { runId := store.nextRunId, connectionId := body.connectionId, tableFqn := body.tableFqn
          mode := body.mode }]
      nextRunId := store.nextRunId + 1 }

/-- `Depends(require_admin)`.  Everything that changes something is behind it, and
so are the two lists that name tokens and users. -/
def adminOnly : Call -> Bool
  | .read .listTokens => true
  | .read .listUsers => true
  | .read _ => false
  | _ => true

/-- The connection the endpoint calls `enforce_connection_scope` with.  Some
endpoints that name a connection do not, and have none here. -/
def scopeOf : Call -> Option Int
  | .read (.connectionSyncStatus connectionId) => some connectionId
  | .updateConnection connectionId _ => some connectionId
  | .deleteConnection connectionId => some connectionId
  | .wipeConnection connectionId => some connectionId
  | .setSelection connectionId _ => some connectionId
  | .launchRun body => some body.connectionId
  | _ => none

/-- The endpoint behind its guards.  A wipe or a deletion of a connection that is
not there succeeds or fails as the code has it, one by one. -/
def perform (services : Services) (answers : Answers) (store : Store) : Call -> Except Rejection Store
  | .read _ => .ok store
  | .createConnection body => createConnection answers body store
  | .updateConnection connectionId body => updateConnection answers connectionId body store
  | .deleteConnection connectionId => .ok (store.deleteConnection connectionId)
  | .wipeConnection connectionId => wipeConnection answers connectionId store
  | .setSelection connectionId items => setSelection connectionId items store
  | .writeSettings values => .ok (writeSettings values store)
  | .createToken body => createToken services answers body store
  | .revokeToken tokenId => .ok (store.revokeApiToken tokenId)
  | .upsertUser body => .ok (store.upsertUser body.email body.role body.enabled)
  | .deleteUser email => .ok (store.deleteUser email)
  | .launchRun body => launchRun answers body store

/-- The guards of the endpoint, in the order they are run.  A request that fails
both is rejected for its role. -/
def guards (principal : Principal) (call : Call) : Except Rejection Unit := do
  if adminOnly call = true then requireAdmin principal
  match scopeOf call with
  | some connectionId => enforceConnectionScope principal connectionId
  | none => pure ()

/-- The guards and the endpoint.  The store only changes through the endpoint, so a
request that is rejected by a guard has changed nothing. -/
def handle (services : Services) (answers : Answers) (principal : Principal) (call : Call)
    (store : Store) : Except Rejection Store := do
  guards principal call
  perform services answers store call

/-- Authenticate and handle a request; a rejected one changes nothing.  This is the
step of the gateway in what is said about sequences of requests. -/
def serve (services : Services) (config : AuthConfig) (answers : Answers) (request : Request)
    (call : Call) (store : Store) : Store :=
  match currentPrincipal services config store.tokens request with
  | .error _ => store
  | .ok principal =>
      match handle services answers principal call store with
      | .error _ => store
      | .ok after => after

/-! ## What a handled request does -/

variable {services : Services} {config : AuthConfig} {answers : Answers} {request : Request}
  {principal : Principal} {call : Call} {store after : Store}

/-- The scope check lets through who is not scoped or scoped to the connection. -/
theorem enforceConnectionScope_eq_ok {connectionId : Int} :
    enforceConnectionScope principal connectionId = .ok () ↔
      principal.connectionId = none ∨ principal.connectionId = some connectionId := by
  unfold enforceConnectionScope
  cases principal.connectionId with
  | none => simp
  | some own =>
      by_cases same : own = connectionId
      · simp [same]
      · simp [same]

theorem requireAdmin_eq_ok : requireAdmin principal = .ok () ↔ principal.isAdmin = true := by
  unfold requireAdmin
  by_cases admin : principal.isAdmin = true
  · simp [admin]
  · simp [admin]

theorem orFail_eq_ok {rejection : Rejection} {result : Option Store} :
    orFail rejection result = .ok after ↔ result = some after := by
  cases result with
  | none => simp [orFail]
  | some store => simp [orFail]

theorem updateConnection_eq_ok {connectionId : Int} {body : ConnectionIn}
    (done : updateConnection answers connectionId body store = .ok after) :
    Exists fun columns : Store.ConnectionColumns => store.updateConnection connectionId columns = some after := by
  unfold updateConnection at done
  split at done
  · cases done
  · rcases bind_eq_ok.mp done with ⟨columns, _, stored⟩
    exact ⟨columns, orFail_eq_ok.mp stored⟩

theorem wipeConnection_eq_ok {connectionId : Int} :
    wipeConnection answers connectionId store = .ok after ↔
      Exists fun conn : Connection => store.getConnection connectionId = some conn ∧
        (((store.dropAllTables conn).deletePrefixes conn answers.undeletedObjects).deleteState
          connectionId).deleteRuns connectionId answers.undeletedRuns = after := by
  unfold wipeConnection
  cases store.getConnection connectionId with
  | none => simp
  | some conn => simp

/-- A launch that succeeds adds a run and nothing else. -/
theorem launchRun_eq_ok {body : RunLaunch} (done : launchRun answers body store = .ok after) :
    after = { store with runs := after.runs, nextRunId := after.nextRunId } := by
  unfold launchRun at done
  split at done
  · cases done
  · cases done
    rfl

theorem guards_eq_ok :
    guards principal call = .ok () ↔
      (adminOnly call = true -> principal.isAdmin = true) ∧
        forall connectionId, scopeOf call = some connectionId ->
          principal.connectionId = none ∨ principal.connectionId = some connectionId := by
  unfold guards
  cases adminOnly call with
  | true =>
      cases scopeOf call with
      | none => simp [bind_unit_eq_ok, requireAdmin_eq_ok, pure, Except.pure]
      | some connectionId => simp [bind_unit_eq_ok, requireAdmin_eq_ok, enforceConnectionScope_eq_ok]
  | false =>
      cases scopeOf call with
      | none => simp [pure, Except.pure]
      | some connectionId => simp [enforceConnectionScope_eq_ok]

/-- Everything an endpoint may do comes after its guards. -/
theorem handle_eq_ok :
    handle services answers principal call store = .ok after ↔
      guards principal call = .ok () ∧ perform services answers store call = .ok after :=
  bind_unit_eq_ok

end App
end WarehouseSync

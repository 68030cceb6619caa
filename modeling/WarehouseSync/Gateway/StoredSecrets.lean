import WarehouseSync.Gateway.ScopedReads
import WarehouseSync.Library.PercentEncoding

namespace WarehouseSync
namespace StoredSecrets

open App Auth Checks ConfigStore PercentEncoding ReadEndpoints
open ScopedReads (sampleOutside)

/-!
# Where stored secrets are sent

A request makes the gateway contact databases and S3.  A contact has the host
and the credentials that are used there: a database may ask for the password,
and a request to S3 is signed with the key pair, or with what the gateway itself
runs under if one of the keys is blank.  Secrets are filled in from the store
where a request leaves them blank, and a connection test combines them with the
host, the region and the bucket of the request.
-/

/-- A host that a request makes the gateway contact, with the credentials it sends
there. -/
inductive Contact where
  | database (host user password : String)
  | s3 (host : String) (keys : Option (String × String))
deriving DecidableEq, Repr

/-- What psycopg reads in a DSN: it tries the hosts one after the other.  An address
that the DSN gives for a host counts as the host. -/
structure Target where
  hosts : List String
  user : String
  password : String
deriving DecidableEq, Repr

def Target.withoutPassword (target : Target) : List String × String :=
  (target.hosts, target.user)

/-- The libraries that contact other hosts.  `s3Host` is the host of a bucket in a
region, unless boto3 rejects them.  `scans` are the requests of DuckDB for a
statement: the bucket, and the connection whose secret it signs with, which it
chooses among the connections with their buckets. -/
structure Network where
  connects : String -> Option Target
  s3Host : String -> String -> Option String
  scans : List (Int × String) -> List View -> Statement -> List (Int × String)

/-- The keys that are passed to boto3 and to DuckDB: both or none. -/
def keyPair (accessKey secretKey : Option String) : Option (String × String) :=
  match nonblank accessKey, nonblank secretKey with
  | some access, some secret => some (access, secret)
  | _, _ => none

def databaseContacts (net : Network) (dsn : String) : List Contact :=
  match net.connects dsn with
  | none => []
  | some target => target.hosts.map (fun host => .database host target.user target.password)

def s3Contact (net : Network) (region bucket : String) (accessKey secretKey : Option String) : Option Contact :=
  (net.s3Host region bucket).map (fun host => .s3 host (keyPair accessKey secretKey))

/-- A request: to a reading endpoint, to the connection test, or to an endpoint
that changes something. -/
inductive Asked where
  | read (read : Read)
  | testConnection (body : ConnectionIn)
  | change (call : Call)

/-- `get_connection_by_name`. -/
def connectionByName (store : Store) (name : String) : Option Connection :=
  store.connections.find? (fun conn => decide (conn.name = name))

/-- The connection whose secrets fill in the blank fields.  It is found by the name
in the body, and anyone may send that. -/
def existing (state : State) (body : ConnectionIn) : Option Connection :=
  if body.name = "" then none else connectionByName state.store body.name

/-- `test_connection`: both tests are made, whatever the first one says.  The
endpoint asks for no role, since nothing is saved. -/
def testContacts (net : Network) (answers : Answers) (state : State) (body : ConnectionIn) : List Contact :=
  let (dsn, accessKey, secretKey) := resolveSecrets answers body (existing state body)
  databaseContacts net dsn ++
    if body.lakeBucket = "" then []
    else (s3Contact net body.awsRegion body.lakeBucket accessKey secretKey).toList

/-- `_validate_or_400`: the bucket is looked at if the database test passes. -/
def validateContacts (net : Network) (answers : Answers) (body : ConnectionIn) (existing : Option Connection) :
    List Contact :=
  let (dsn, accessKey, secretKey) := resolveSecrets answers body existing
  databaseContacts net dsn ++
    if (answers.testDb dsn).isSome || body.lakeBucket == "" then []
    else (s3Contact net body.awsRegion body.lakeBucket accessKey secretKey).toList

def createContacts (net : Network) (answers : Answers) (body : ConnectionIn) : List Contact :=
  if [body.dbHost, body.dbName, body.dbUser, body.dbPassword, body.awsAccessKey, body.awsSecretKey].all
      (fun field => (nonblank field).isSome) = true then validateContacts net answers body none
  else []

def updateContacts (net : Network) (answers : Answers) (state : State) (connectionId : Int) (body : ConnectionIn) :
    List Contact :=
  match state.store.getConnection connectionId with
  | none => []
  | some existing => validateContacts net answers body (some existing)

def bucketContact (net : Network) (conn : Connection) : Option Contact :=
  s3Contact net conn.awsRegion conn.lakeBucket conn.awsAccessKey conn.awsSecretKey

/-- Only a wipe goes to S3 beside what a new record is checked with.  All of these
are for administrators. -/
def changeContacts (net : Network) (answers : Answers) (state : State) : Call -> List Contact
  | .createConnection body => createContacts net answers body
  | .updateConnection connectionId body => updateContacts net answers state connectionId body
  | .wipeConnection connectionId => ((state.store.getConnection connectionId).bind (bucketContact net)).toList
  | _ => []

/-- The buckets that DuckDB has secrets for.  A secret is chosen by its bucket, so
it is the path in a statement that decides which one is used. -/
def scopes (state : State) : List (Int × String) :=
  (enabledConnections state).map (fun conn => (conn.id, conn.lakeBucket))

def scanContact (net : Network) (state : State) (scan : Int × String) : Option Contact :=
  (state.store.getConnection scan.1).bind (fun conn =>
    s3Contact net conn.awsRegion scan.2 conn.awsAccessKey conn.awsSecretKey)

def scanContacts (net : Network) (state : State) (statement : Statement) : List Contact :=
  (net.scans (scopes state) state.views statement).filterMap (scanContact net state)

/-- Picking objects goes to the source, and a query to the lake.  The result of a
submitted query is put into the bucket of the first enabled connection. -/
def readContacts (env : Outside) (net : Network) (principal : Principal) (state : State) : Read -> List Contact
  | .connectionObjects connectionId =>
      match state.store.getConnection connectionId with
      | none => []
      | some conn => databaseContacts net conn.sourceDsn
  | .runQuerySync sql _ =>
      match prepareSql env principal state sql with
      | .error _ => []
      | .ok statement => scanContacts net state statement
  | .submitQuery sql =>
      match prepareSql env principal state sql, (enabledConnections state).head? with
      | .ok statement, some first => scanContacts net state statement ++ (bucketContact net first).toList
      | _, _ => []
  | _ => []

/-- The contacts of a request; a rejected one has none.  They are listed in order,
and each with what is sent. -/
def contacts (env : Outside) (net : Network) (answers : Answers) (principal : Principal) (state : State) :
    Asked -> List Contact
  | .read read => readContacts env net principal state read
  | .testConnection body => testContacts net answers state body
  | .change call =>
      match guards principal call with
      | .error _ => []
      | .ok _ => changeContacts net answers state call

/-- The record with another DSN and another secret key. -/
def otherSecrets (id : Int) (dsn : String) (secretKey : Option String) (conn : Connection) : Connection :=
  if conn.id = id then { conn with sourceDsn := dsn, awsSecretKey := secretKey } else conn

def withSecrets (state : State) (id : Int) (dsn : String) (secretKey : Option String) : State :=
  { state with
    store := { state.store with connections := state.store.connections.map (otherSecrets id dsn secretKey) } }

def storedHosts (net : Network) (conn : Connection) : List String :=
  ((net.connects conn.sourceDsn).map Target.hosts).getD []

/-- The contact is with another host than the one stored with the connection.  What
is sent to the stored hosts is no leak, as the secret is for them. -/
def elsewhere (net : Network) (conn : Connection) : Contact -> Bool
  | .database host _ _ => !(storedHosts net conn).contains host
  | .s3 host _ => decide (net.s3Host conn.awsRegion conn.lakeBucket ≠ some host)

def databaseHost : Contact -> Option String
  | .database host _ _ => some host
  | .s3 _ _ => none

/-- The same databases are contacted, and what is sent to other hosts than those of
the connection is the same.  Two states that differ in a secret alone are compared
by it. -/
structure SentAlike (net : Network) (conn : Connection) (first second : List Contact) : Prop where
  hosts : first.filterMap databaseHost = second.filterMap databaseHost
  credentials : first.filter (elsewhere net conn) = second.filter (elsewhere net conn)

/-! ## What is relied on -/

/-- Without the character that libpq takes in no text. -/
def NulFree (text : String) : Prop :=
  Char.ofNat 0 ∉ text.toList

instance (text : String) : Decidable (NulFree text) :=
  inferInstanceAs (Decidable (Char.ofNat 0 ∉ text.toList))

/-- The DSN has a password of the request's own in a parameter.  The one that is
filled in is then not sent. -/
def Overridden (net : Network) (body : ConnectionIn) : Prop :=
  Exists fun fixed => forall password target, NulFree password ->
    net.connects (buildDsn body password) = some target -> target.password = fixed

/-- How libpq reads the DSNs that the gateway builds: the password is what stands
before the `@`, whatever it is, unless the request has a parameter that replaces it,
and nothing else depends on it. -/
structure ReadsUris (net : Network) (answers : Answers) : Prop where
  nulFree : forall dsn, NulFree (answers.dsnPassword dsn)
  rest : forall body first second, NulFree first -> NulFree second ->
    (net.connects (buildDsn body first)).map Target.withoutPassword =
      (net.connects (buildDsn body second)).map Target.withoutPassword
  password : forall body,
    (forall password target, NulFree password -> net.connects (buildDsn body password) = some target ->
      target.password = password) ∨ Overridden net body

/-- The hosts that the request names. -/
def requestHosts (net : Network) (body : ConnectionIn) : List String :=
  ((net.connects (buildDsn body "")).map Target.hosts).getD []

/-! ## Requests that send a secret elsewhere -/

/-- The password is filled in, and the host is not the one it is stored with. -/
structure PasswordLeaks (net : Network) (answers : Answers) (conn : Connection) (dsn : String)
    (body : ConnectionIn) : Prop where
  blank : nonblank body.dbPassword = none
  differ : answers.dsnPassword conn.sourceDsn ≠ answers.dsnPassword dsn
  used : ¬ Overridden net body
  away : Exists fun host => host ∈ requestHosts net body ∧ host ∉ storedHosts net conn

/-- The secret key is filled in beside an access key, and the host is not that of
the bucket it is stored with. -/
structure SecretKeyLeaks (net : Network) (conn : Connection) (secretKey : Option String)
    (body : ConnectionIn) : Prop where
  blank : nonblank body.awsSecretKey = none
  differ : keyPair ((nonblank body.awsAccessKey).orElse (fun _ => conn.awsAccessKey)) conn.awsSecretKey ≠
    keyPair ((nonblank body.awsAccessKey).orElse (fun _ => conn.awsAccessKey)) secretKey
  bucket : body.lakeBucket ≠ ""
  away : Exists fun host => net.s3Host body.awsRegion body.lakeBucket = some host ∧
    net.s3Host conn.awsRegion conn.lakeBucket ≠ some host

/-- DuckDB signs a request for another bucket with the secret key. -/
structure ScanLeaks (net : Network) (state : State) (conn : Connection) (secretKey : Option String)
    (statement : Statement) : Prop where
  differ : keyPair conn.awsAccessKey conn.awsSecretKey ≠ keyPair conn.awsAccessKey secretKey
  away : Exists fun scan => scan ∈ net.scans (scopes state) state.views statement ∧ scan.1 = conn.id ∧
    Exists fun host => net.s3Host conn.awsRegion scan.2 = some host ∧
      net.s3Host conn.awsRegion conn.lakeBucket ≠ some host

/-- The requests whose contacts elsewhere depend on a secret of the connection.
Each is described by its body and the stored record, without looking at what is
contacted. -/
def Leaks (env : Outside) (net : Network) (answers : Answers) (principal : Principal) (state : State)
    (conn : Connection) (dsn : String) (secretKey : Option String) : Asked -> Prop
  | .testConnection body => existing state body = some conn ∧
      (PasswordLeaks net answers conn dsn body ∨ SecretKeyLeaks net conn secretKey body)
  | .read (.runQuerySync sql _) => Exists fun statement =>
      prepareSql env principal state sql = .ok statement ∧ ScanLeaks net state conn secretKey statement
  | .read (.submitQuery sql) => enabledConnections state ≠ [] ∧ Exists fun statement =>
      prepareSql env principal state sql = .ok statement ∧ ScanLeaks net state conn secretKey statement
  | _ => False

variable {env : Outside} {net : Network} {answers : Answers} {principal : Principal} {state : State}
  {conn : Connection} {dsn : String} {secretKey : Option String}

/-- A field that is neither the DSN nor the secret key. -/
theorem field_otherSecrets {β : Type} {field : Connection -> β}
    (visible : forall conn dsn secretKey,
      field { conn with sourceDsn := dsn, awsSecretKey := secretKey } = field conn)
    (id : Int) (dsn : String) (secretKey : Option String) (conn : Connection) :
    field (otherSecrets id dsn secretKey conn) = field conn := by
  unfold otherSecrets
  split
  · exact visible conn dsn secretKey
  · rfl

theorem getConnection_withSecrets (state : State) (id other : Int) (dsn : String) (secretKey : Option String) :
    (withSecrets state id dsn secretKey).store.getConnection other =
      (state.store.getConnection other).map (otherSecrets id dsn secretKey) := by
  unfold withSecrets Store.getConnection
  rw [List.find?_map]
  congr
  funext conn
  exact congrArg (fun id => decide (id = other)) (field_otherSecrets (fun _ _ _ => rfl) id dsn secretKey conn)

theorem connectionByName_withSecrets (state : State) (id : Int) (name : String) (dsn : String)
    (secretKey : Option String) :
    connectionByName (withSecrets state id dsn secretKey).store name =
      (connectionByName state.store name).map (otherSecrets id dsn secretKey) := by
  unfold withSecrets connectionByName
  rw [List.find?_map]
  congr
  funext conn
  exact congrArg (fun stored => decide (stored = name)) (field_otherSecrets (fun _ _ _ => rfl) id dsn secretKey conn)

theorem existing_withSecrets (state : State) (id : Int) (dsn : String) (secretKey : Option String)
    (body : ConnectionIn) :
    existing (withSecrets state id dsn secretKey) body =
      (existing state body).map (otherSecrets id dsn secretKey) := by
  unfold existing
  split
  · rfl
  · exact connectionByName_withSecrets state id body.name dsn secretKey

theorem enabledConnections_withSecrets (state : State) (id : Int) (dsn : String) (secretKey : Option String) :
    enabledConnections (withSecrets state id dsn secretKey) =
      (enabledConnections state).map (otherSecrets id dsn secretKey) := by
  unfold enabledConnections withSecrets
  rw [List.filter_map]
  congr 2
  funext conn
  exact field_otherSecrets (fun _ _ _ => rfl) id dsn secretKey conn

theorem map_enabled_withSecrets {β : Type} {field : Connection -> β}
    (visible : forall conn dsn secretKey,
      field { conn with sourceDsn := dsn, awsSecretKey := secretKey } = field conn)
    (state : State) (id : Int) (dsn : String) (secretKey : Option String) :
    (enabledConnections (withSecrets state id dsn secretKey)).map field = (enabledConnections state).map field := by
  rw [enabledConnections_withSecrets, List.map_map]
  apply List.map_congr_left
  intro conn _
  exact field_otherSecrets visible id dsn secretKey conn

theorem scopes_withSecrets (state : State) (id : Int) (dsn : String) (secretKey : Option String) :
    scopes (withSecrets state id dsn secretKey) = scopes state :=
  map_enabled_withSecrets (fun _ _ _ => rfl) state id dsn secretKey

theorem prepareSql_withSecrets (env : Outside) (principal : Principal) (state : State) (id : Int) (dsn : String)
    (secretKey : Option String) (sql : String) :
    prepareSql env principal (withSecrets state id dsn secretKey) sql = prepareSql env principal state sql := by
  have guard : guardFor env principal (withSecrets state id dsn secretKey) = guardFor env principal state := by
    unfold guardFor
    rw [@map_enabled_withSecrets String Connection.icebergNamespace (fun _ _ _ => rfl)]
    cases principal.connectionId with
    | none => rfl
    | some connectionId =>
        simp only
        rw [getConnection_withSecrets]
        cases state.store.getConnection connectionId with
        | none => rfl
        | some conn =>
            simp only [Option.map_some]
            rw [@field_otherSecrets String Connection.icebergNamespace (fun _ _ _ => rfl)]
            rfl
  unfold prepareSql
  rw [guard]
  rfl

theorem filter_databaseContacts {dsn : String} {target : Target} (read : net.connects dsn = some target) :
    (databaseContacts net dsn).filter (elsewhere net conn) =
      (target.hosts.filter (fun host => !(storedHosts net conn).contains host)).map
        (fun host => .database host target.user target.password) := by
  unfold databaseContacts
  rw [read]
  exact List.filter_map

theorem hosts_databaseContacts {dsn : String} {target : Target} (read : net.connects dsn = some target) :
    (databaseContacts net dsn).filterMap databaseHost = target.hosts := by
  unfold databaseContacts
  rw [read]
  simp only
  rw [List.filterMap_map]
  exact List.filterMap_some

/-- Both DSNs are read, with the same hosts and the same user, or neither is. -/
theorem targets_cases {first second : String}
    (apart : (net.connects second).map Target.withoutPassword = (net.connects first).map Target.withoutPassword) :
    (net.connects first = none ∧ net.connects second = none) ∨
      Exists fun target : Target => net.connects first = some target ∧
        Exists fun password => net.connects second = some { target with password := password } := by
  cases readFirst : net.connects first with
  | none =>
      rw [readFirst] at apart
      exact Or.inl ⟨rfl, Option.map_eq_none_iff.mp apart⟩
  | some target =>
      rw [readFirst] at apart
      rcases Option.map_eq_some_iff.mp apart with ⟨other, readSecond, same⟩
      rcases other with ⟨hosts, user, password⟩
      cases same
      exact Or.inr ⟨target, rfl, password, readSecond⟩

theorem databaseContacts_hosts {first second : String}
    (apart : (net.connects second).map Target.withoutPassword = (net.connects first).map Target.withoutPassword) :
    (databaseContacts net first).filterMap databaseHost = (databaseContacts net second).filterMap databaseHost := by
  rcases targets_cases apart with ⟨readFirst, readSecond⟩ | ⟨target, readFirst, password, readSecond⟩
  · unfold databaseContacts
    rw [readFirst, readSecond]
  · rw [hosts_databaseContacts readFirst, hosts_databaseContacts readSecond]

theorem databaseContacts_length {first second : String}
    (apart : (net.connects second).map Target.withoutPassword = (net.connects first).map Target.withoutPassword) :
    ((databaseContacts net first).filter (elsewhere net conn)).length =
      ((databaseContacts net second).filter (elsewhere net conn)).length := by
  rcases targets_cases apart with ⟨readFirst, readSecond⟩ | ⟨target, readFirst, password, readSecond⟩
  · unfold databaseContacts
    rw [readFirst, readSecond]
  · rw [filter_databaseContacts readFirst, filter_databaseContacts readSecond, List.length_map, List.length_map]

/-- Another password is sent to each host that is not one of the connection. -/
theorem databaseContacts_alike_iff {first second : String} {target : Target} {password : String}
    (readFirst : net.connects first = some target)
    (readSecond : net.connects second = some { target with password := password }) :
    (databaseContacts net first).filter (elsewhere net conn) =
        (databaseContacts net second).filter (elsewhere net conn) ↔
      (target.password ≠ password -> forall host, host ∈ target.hosts -> host ∈ storedHosts net conn) := by
  rw [filter_databaseContacts readFirst, filter_databaseContacts readSecond, List.map_inj_left]
  constructor
  · intro same differ host listed
    by_contra away
    have kept : host ∈ target.hosts.filter (fun host => !(storedHosts net conn).contains host) := by
      apply List.mem_filter.mpr
      refine ⟨listed, ?_⟩
      rw [Bool.not_eq_true', List.contains_eq_mem]
      exact decide_eq_false away
    injection same host kept with _ _ passwords
    exact differ passwords
  · intro near host kept
    by_cases same : target.password = password
    · rw [same]
    · have parts := List.mem_filter.mp kept
      have listed := near same host parts.1
      rw [List.contains_eq_mem, decide_eq_true listed] at parts
      cases parts.2

/-- Another key pair is used at a host that is not that of the connection's bucket. -/
theorem s3Contact_alike_iff {region bucket : String} {accessKey first second : Option String} :
    (s3Contact net region bucket accessKey first).filter (elsewhere net conn) =
        (s3Contact net region bucket accessKey second).filter (elsewhere net conn) ↔
      (keyPair accessKey first ≠ keyPair accessKey second -> forall host, net.s3Host region bucket = some host ->
        net.s3Host conn.awsRegion conn.lakeBucket = some host) := by
  unfold s3Contact
  cases net.s3Host region bucket with
  | none => simp
  | some host =>
      by_cases near : net.s3Host conn.awsRegion conn.lakeBucket = some host
      · simp [Option.filter, elsewhere, near]
      · simp [Option.filter, elsewhere, near]

/-- Lists made of the same places are the same if each place makes the same. -/
theorem filterMap_eq_iff {ι β : Type} {first second : ι -> Option β} {places : List ι}
    (shape : forall place, place ∈ places -> (first place).isSome = (second place).isSome) :
    places.filterMap first = places.filterMap second ↔
      forall place, place ∈ places -> first place = second place := by
  induction places with
  | nil => simp
  | cons place places ih =>
      rw [List.forall_mem_cons] at shape ⊢
      rw [<- ih shape.2]
      cases made : first place with
      | none =>
          rw [made] at shape
          have madeSecond : second place = none :=
            Option.isSome_eq_false_iff.mp shape.1.symm |> Option.isNone_iff_eq_none.mp
          simp [made, madeSecond]
      | some value =>
          rw [made] at shape
          rcases Option.isSome_iff_exists.mp shape.1.symm with ⟨other, madeSecond⟩
          simp [made, madeSecond]

theorem s3Contact_databaseHost {region bucket : String} {accessKey secretKey : Option String} {contact : Contact}
    (made : s3Contact net region bucket accessKey secretKey = some contact) : databaseHost contact = none := by
  rcases Option.map_eq_some_iff.mp made with ⟨host, _, rfl⟩
  rfl

/-- At the place of a bucket, the two runs have contacts with the same host. -/
theorem s3Contact_shape (region bucket : String) (accessKey first second : Option String) :
    ((s3Contact net region bucket accessKey first).filter (elsewhere net conn)).isSome =
      ((s3Contact net region bucket accessKey second).filter (elsewhere net conn)).isSome := by
  unfold s3Contact
  cases net.s3Host region bucket with
  | none => rfl
  | some host =>
      by_cases near : net.s3Host conn.awsRegion conn.lakeBucket = some host
      · simp [Option.filter, elsewhere, near]
      · simp [Option.filter, elsewhere, near]

/-- The connection that is changed is the only one with its id. -/
theorem otherSecrets_cases (idsOnce : (state.store.connections.map Connection.id).Nodup)
    (stored : conn ∈ state.store.connections) {other : Connection} (listed : other ∈ state.store.connections)
    (dsn : String) (secretKey : Option String) :
    (other = conn ∧ otherSecrets conn.id dsn secretKey other =
        { conn with sourceDsn := dsn, awsSecretKey := secretKey }) ∨
      (other.id ≠ conn.id ∧ otherSecrets conn.id dsn secretKey other = other) := by
  unfold otherSecrets
  by_cases same : other.id = conn.id
  · have whole := List.inj_on_of_nodup_map idsOnce listed stored same
    subst whole
    exact Or.inl ⟨rfl, if_pos rfl⟩
  · exact Or.inr ⟨same, if_neg same⟩

theorem scanContact_shape (scan : Int × String) :
    ((scanContact net state scan).filter (elsewhere net conn)).isSome =
      ((scanContact net (withSecrets state conn.id dsn secretKey) scan).filter (elsewhere net conn)).isSome := by
  unfold scanContact
  rw [getConnection_withSecrets]
  cases state.store.getConnection scan.1 with
  | none => rfl
  | some other =>
      simp only [Option.map_some, Option.bind_some]
      rw [@field_otherSecrets String Connection.awsRegion (fun _ _ _ => rfl),
        @field_otherSecrets (Option String) Connection.awsAccessKey (fun _ _ _ => rfl)]
      exact s3Contact_shape other.awsRegion scan.2 other.awsAccessKey other.awsSecretKey _

theorem scanContact_alike_iff (stored : state.store.getConnection conn.id = some conn) (scan : Int × String) :
    (scanContact net state scan).filter (elsewhere net conn) =
        (scanContact net (withSecrets state conn.id dsn secretKey) scan).filter (elsewhere net conn) ↔
      (scan.1 = conn.id -> keyPair conn.awsAccessKey conn.awsSecretKey ≠ keyPair conn.awsAccessKey secretKey ->
        forall host, net.s3Host conn.awsRegion scan.2 = some host ->
          net.s3Host conn.awsRegion conn.lakeBucket = some host) := by
  unfold scanContact
  rw [getConnection_withSecrets]
  by_cases own : scan.1 = conn.id
  · rw [own, stored]
    simp only [Option.map_some, Option.bind_some]
    unfold otherSecrets
    rw [if_pos rfl]
    simp only [forall_const]
    exact s3Contact_alike_iff
  · cases found : state.store.getConnection scan.1 with
    | none => simp [own]
    | some other =>
        have member := Store.getConnection_eq_some found
        have foreign : other.id ≠ conn.id := by
          rw [member.2]
          exact own
        simp only [Option.map_some, Option.bind_some]
        unfold otherSecrets
        rw [if_neg foreign]
        exact ⟨fun _ same => absurd same own, fun _ => rfl⟩

theorem scanContacts_alike_iff (stored : state.store.getConnection conn.id = some conn) (statement : Statement) :
    (scanContacts net state statement).filter (elsewhere net conn) =
        (scanContacts net (withSecrets state conn.id dsn secretKey) statement).filter (elsewhere net conn) ↔
      ¬ ScanLeaks net state conn secretKey statement := by
  unfold scanContacts
  rw [scopes_withSecrets, List.filter_filterMap, List.filter_filterMap]
  refine (filterMap_eq_iff (fun scan _ => scanContact_shape scan)).trans ?_
  constructor
  · rintro alike ⟨differ, scan, listed, own, host, addressed, away⟩
    have near := (scanContact_alike_iff stored scan).mp (alike scan listed)
    exact away (near own differ host addressed)
  · intro kept scan listed
    apply (scanContact_alike_iff stored scan).mpr
    intro own differ host addressed
    by_contra away
    exact kept ⟨differ, scan, listed, own, host, addressed, away⟩

theorem scanContacts_databaseHost (net : Network) (state : State) (statement : Statement) :
    (scanContacts net state statement).filterMap databaseHost = [] := by
  apply List.filterMap_eq_nil_iff.mpr
  intro contact listed
  rcases List.mem_filterMap.mp listed with ⟨scan, _, made⟩
  rcases Option.bind_eq_some_iff.mp made with ⟨other, _, addressed⟩
  exact s3Contact_databaseHost addressed

/-- The first connection's own bucket is no other host for it. -/
theorem bucketContact_alike (idsOnce : (state.store.connections.map Connection.id).Nodup)
    (stored : conn ∈ state.store.connections) {first : Connection} (listed : first ∈ state.store.connections) :
    (bucketContact net first).filter (elsewhere net conn) =
      (bucketContact net (otherSecrets conn.id dsn secretKey first)).filter (elsewhere net conn) := by
  rcases otherSecrets_cases idsOnce stored listed dsn secretKey with ⟨rfl, changed⟩ | ⟨_, kept⟩
  · rw [changed]
    unfold bucketContact
    apply s3Contact_alike_iff.mpr
    intro _ host addressed
    exact addressed
  · rw [kept]

theorem nulFree_empty : NulFree "" := by
  intro listed
  cases listed

/-- The hosts do not depend on the password. -/
theorem requestHosts_eq (laws : ReadsUris net answers) {body : ConnectionIn} {password : String}
    (nulFree : NulFree password) :
    requestHosts net body = ((net.connects (buildDsn body password)).map Target.hosts).getD [] := by
  unfold requestHosts
  have same := congrArg (Option.map Prod.fst) (laws.rest body "" password nulFree_empty nulFree)
  rw [Option.map_map, Option.map_map] at same
  exact congrArg (fun hosts => hosts.getD []) same

theorem password_alike_iff (laws : ReadsUris net answers) (body : ConnectionIn) :
    (databaseContacts net (buildDsn body ((nonblank body.dbPassword).getD
        (answers.dsnPassword conn.sourceDsn)))).filter (elsewhere net conn) =
      (databaseContacts net (buildDsn body ((nonblank body.dbPassword).getD
        (answers.dsnPassword dsn)))).filter (elsewhere net conn) ↔
      ¬ PasswordLeaks net answers conn dsn body := by
  cases typed : nonblank body.dbPassword with
  | some password =>
      refine ⟨fun _ leaks => ?_, fun _ => rfl⟩
      rw [leaks.blank] at typed
      cases typed
  | none =>
      have firstFree := laws.nulFree conn.sourceDsn
      have secondFree := laws.nulFree dsn
      have hosts := @requestHosts_eq net answers laws body _ firstFree
      simp only [Option.getD_none]
      rcases targets_cases (laws.rest body _ _ secondFree firstFree) with
        ⟨readFirst, readSecond⟩ | ⟨target, readFirst, password, readSecond⟩
      · rw [readFirst] at hosts
        constructor
        · intro _ leaks
          rcases leaks.away with ⟨host, listed, _⟩
          rw [hosts] at listed
          cases listed
        · intro _
          unfold databaseContacts
          rw [readFirst, readSecond]
      · rw [readFirst] at hosts
        rw [databaseContacts_alike_iff readFirst readSecond]
        by_cases overridden : Overridden net body
        · rcases overridden with ⟨fixed, replaces⟩
          have sameFirst := replaces _ _ firstFree readFirst
          have sameSecond := replaces _ _ secondFree readSecond
          refine ⟨fun _ leaks => leaks.used ⟨fixed, replaces⟩, fun _ differ => ?_⟩
          exact absurd (sameFirst.trans sameSecond.symm) differ
        · rcases laws.password body with asGiven | fixed
          · have givenFirst : target.password = answers.dsnPassword conn.sourceDsn :=
              asGiven _ _ firstFree readFirst
            have givenSecond : password = answers.dsnPassword dsn := asGiven _ _ secondFree readSecond
            rw [givenFirst, givenSecond]
            constructor
            · rintro near ⟨_, differ, _, host, listed, away⟩
              rw [hosts] at listed
              exact away (near differ host listed)
            · intro kept differ host listed
              by_contra away
              rw [<- @Option.getD_some _ target.hosts [], <- Option.map_some, <- hosts] at listed
              exact kept ⟨typed, differ, overridden, host, listed, away⟩
          · exact absurd fixed overridden

theorem toList_inj {first second : Option Contact} : first.toList = second.toList ↔ first = second := by
  cases first with
  | none => cases second <;> simp
  | some contact => cases second <;> simp

theorem secretKey_alike_iff (body : ConnectionIn) :
    (if body.lakeBucket = "" then []
      else (s3Contact net body.awsRegion body.lakeBucket
        ((nonblank body.awsAccessKey).orElse (fun _ => conn.awsAccessKey))
        ((nonblank body.awsSecretKey).orElse (fun _ => conn.awsSecretKey))).toList).filter (elsewhere net conn) =
      (if body.lakeBucket = "" then []
        else (s3Contact net body.awsRegion body.lakeBucket
          ((nonblank body.awsAccessKey).orElse (fun _ => conn.awsAccessKey))
          ((nonblank body.awsSecretKey).orElse (fun _ => secretKey))).toList).filter (elsewhere net conn) ↔
      ¬ SecretKeyLeaks net conn secretKey body := by
  by_cases bucket : body.lakeBucket = ""
  · rw [if_pos bucket, if_pos bucket]
    exact ⟨fun _ leaks => leaks.bucket bucket, fun _ => rfl⟩
  · rw [if_neg bucket, if_neg bucket]
    cases typed : nonblank body.awsSecretKey with
    | some key =>
        refine ⟨fun _ leaks => ?_, fun _ => rfl⟩
        rw [leaks.blank] at typed
        cases typed
    | none =>
        rw [<- Option.toList_filter, <- Option.toList_filter, toList_inj]
        simp only [Option.orElse_none]
        rw [s3Contact_alike_iff]
        constructor
        · rintro near ⟨_, differ, _, host, addressed, away⟩
          exact away (near differ host addressed)
        · intro kept differ host addressed
          by_contra away
          exact kept ⟨typed, differ, bucket, host, addressed, away⟩

theorem testBuckets_databaseHost (bucket : String) (contact : Option Contact)
    (none : forall made, contact = some made -> databaseHost made = .none) :
    (if bucket = "" then [] else contact.toList).filterMap databaseHost = [] := by
  apply List.filterMap_eq_nil_iff.mpr
  intro made listed
  split at listed
  · cases listed
  · exact none made (Option.mem_toList.mp listed)

/-- Filled in or not, only the password of the DSN depends on what is stored. -/
theorem filledIn_apart (laws : ReadsUris net answers) (body : ConnectionIn) (first second : String) :
    (net.connects (buildDsn body ((nonblank body.dbPassword).getD (answers.dsnPassword second)))).map
        Target.withoutPassword =
      (net.connects (buildDsn body ((nonblank body.dbPassword).getD (answers.dsnPassword first)))).map
        Target.withoutPassword := by
  cases nonblank body.dbPassword with
  | some password => rfl
  | none => exact laws.rest body _ _ (laws.nulFree second) (laws.nulFree first)

theorem filledIn_alike_iff (laws : ReadsUris net answers) {first second : State} {body : ConnectionIn}
    (foundFirst : existing first body = some conn)
    (foundSecond : existing second body = some { conn with sourceDsn := dsn, awsSecretKey := secretKey }) :
    SentAlike net conn (testContacts net answers first body) (testContacts net answers second body) ↔
      ¬ (PasswordLeaks net answers conn dsn body ∨ SecretKeyLeaks net conn secretKey body) := by
  have apart := filledIn_apart laws body conn.sourceDsn dsn
  rw [not_or, <- password_alike_iff laws body, <- secretKey_alike_iff body]
  unfold testContacts resolveSecrets
  rw [foundFirst, foundSecond]
  simp only [Option.map_some, Option.getD_some, Option.bind_some]
  constructor
  · rintro ⟨_, credentials⟩
    rw [List.filter_append, List.filter_append] at credentials
    exact List.append_inj credentials (databaseContacts_length apart)
  · rintro ⟨passwords, keys⟩
    refine ⟨?_, ?_⟩
    · rw [List.filterMap_append, List.filterMap_append, databaseContacts_hosts apart,
        testBuckets_databaseHost _ _ (fun made => s3Contact_databaseHost),
        testBuckets_databaseHost _ _ (fun made => s3Contact_databaseHost)]
    · rw [List.filter_append, List.filter_append, passwords, keys]

theorem test_alike_iff (laws : ReadsUris net answers) (idsOnce : (state.store.connections.map Connection.id).Nodup)
    (stored : conn ∈ state.store.connections) (body : ConnectionIn) :
    SentAlike net conn (testContacts net answers state body)
        (testContacts net answers (withSecrets state conn.id dsn secretKey) body) ↔
      ¬ (existing state body = some conn ∧
        (PasswordLeaks net answers conn dsn body ∨ SecretKeyLeaks net conn secretKey body)) := by
  have same (first second : State) (unchanged : existing second body = existing first body) :
      SentAlike net conn (testContacts net answers first body) (testContacts net answers second body) := by
    unfold testContacts
    rw [unchanged]
    exact ⟨rfl, rfl⟩
  cases found : existing state body with
  | none =>
      refine ⟨fun _ leaks => (by cases leaks.1), fun _ => same _ _ ?_⟩
      rw [existing_withSecrets, found]
      rfl
  | some other =>
      have listed : other ∈ state.store.connections := by
        unfold existing connectionByName at found
        split at found
        · cases found
        · exact List.mem_of_find?_eq_some found
      rcases otherSecrets_cases idsOnce stored listed dsn secretKey with ⟨rfl, changed⟩ | ⟨foreign, kept⟩
      · have foundSecond : existing (withSecrets state other.id dsn secretKey) body =
            some { other with sourceDsn := dsn, awsSecretKey := secretKey } := by
          rw [existing_withSecrets, found, Option.map_some, changed]
        rw [filledIn_alike_iff laws found foundSecond, eq_self_iff_true, true_and]
      · refine ⟨fun _ leaks => ?_, fun _ => same _ _ ?_⟩
        · cases leaks.1
          exact foreign rfl
        · rw [existing_withSecrets, found, Option.map_some, kept]

/-! ## All endpoints -/

theorem sentAlike_refl (net : Network) (conn : Connection) (sent : List Contact) : SentAlike net conn sent sent :=
  ⟨rfl, rfl⟩

/-- A query contacts no database. -/
theorem scans_sentAlike_iff (stored : state.store.getConnection conn.id = some conn) (statement : Statement) :
    SentAlike net conn (scanContacts net state statement)
        (scanContacts net (withSecrets state conn.id dsn secretKey) statement) ↔
      ¬ ScanLeaks net state conn secretKey statement := by
  rw [<- scanContacts_alike_iff stored]
  refine ⟨fun alike => alike.credentials, fun credentials => ⟨?_, credentials⟩⟩
  rw [scanContacts_databaseHost, scanContacts_databaseHost]

theorem bucketContact_databaseHost (net : Network) (first : Connection) :
    (bucketContact net first).toList.filterMap databaseHost = [] := by
  apply List.filterMap_eq_nil_iff.mpr
  intro contact made
  exact s3Contact_databaseHost (Option.mem_toList.mp made)

/-- The sources of a stored connection are at its own hosts. -/
theorem objects_sentAlike (env : Outside) (principal : Principal)
    (idsOnce : (state.store.connections.map Connection.id).Nodup)
    (stored : conn ∈ state.store.connections)
    (apart : (net.connects dsn).map Target.withoutPassword =
      (net.connects conn.sourceDsn).map Target.withoutPassword) (connectionId : Int) :
    SentAlike net conn (readContacts env net principal state (.connectionObjects connectionId))
      (readContacts env net principal (withSecrets state conn.id dsn secretKey)
        (.connectionObjects connectionId)) := by
  unfold readContacts
  simp only
  rw [getConnection_withSecrets]
  cases found : state.store.getConnection connectionId with
  | none => exact sentAlike_refl net conn []
  | some other =>
      have listed := (Store.getConnection_eq_some found).1
      simp only [Option.map_some]
      rcases otherSecrets_cases idsOnce stored listed dsn secretKey with ⟨rfl, changed⟩ | ⟨_, kept⟩
      · rw [changed]
        refine ⟨databaseContacts_hosts apart, ?_⟩
        rcases targets_cases apart with ⟨readFirst, readSecond⟩ | ⟨target, readFirst, password, readSecond⟩
        · unfold databaseContacts
          rw [readFirst, readSecond]
        · apply (databaseContacts_alike_iff readFirst readSecond).mpr
          intro _ host tried
          unfold storedHosts
          rw [readFirst]
          exact tried
      · rw [kept]
        exact sentAlike_refl net conn _

theorem submit_alike_iff (idsOnce : (state.store.connections.map Connection.id).Nodup)
    (stored : state.store.getConnection conn.id = some conn) (sql : String) :
    SentAlike net conn (readContacts env net principal state (.submitQuery sql))
        (readContacts env net principal (withSecrets state conn.id dsn secretKey) (.submitQuery sql)) ↔
      ¬ Leaks env net answers principal state conn dsn secretKey (.read (.submitQuery sql)) := by
  unfold readContacts Leaks
  simp only
  rw [prepareSql_withSecrets, enabledConnections_withSecrets, List.head?_map]
  cases prepared : prepareSql env principal state sql with
  | error message =>
      refine ⟨fun _ leaks => ?_, fun _ => sentAlike_refl net conn []⟩
      rcases leaks with ⟨_, statement, same, _⟩
      cases same
  | ok statement =>
      cases enabled : enabledConnections state with
      | nil => exact ⟨fun _ leaks => leaks.1 rfl, fun _ => sentAlike_refl net conn []⟩
      | cons first others =>
          have listed : first ∈ state.store.connections := by
            have member : first ∈ enabledConnections state := by
              rw [enabled]
              exact List.mem_cons_self
            exact (List.mem_filter.mp member).1
          have upload := @bucketContact_alike net state conn dsn secretKey idsOnce
            (Store.getConnection_eq_some stored).1 first listed
          simp only [List.head?_cons, Option.map_some]
          have scans : SentAlike net conn (scanContacts net state statement ++ (bucketContact net first).toList)
              (scanContacts net (withSecrets state conn.id dsn secretKey) statement ++
                (bucketContact net (otherSecrets conn.id dsn secretKey first)).toList) ↔
              ¬ ScanLeaks net state conn secretKey statement := by
            rw [<- scans_sentAlike_iff stored]
            constructor
            · rintro ⟨_, credentials⟩
              rw [List.filter_append, List.filter_append, <- Option.toList_filter, <- Option.toList_filter,
                upload, List.append_cancel_right_eq] at credentials
              refine ⟨?_, credentials⟩
              rw [scanContacts_databaseHost, scanContacts_databaseHost]
            · rintro ⟨_, credentials⟩
              refine ⟨?_, ?_⟩
              · rw [List.filterMap_append, List.filterMap_append, scanContacts_databaseHost,
                  scanContacts_databaseHost, bucketContact_databaseHost, bucketContact_databaseHost]
              · rw [List.filter_append, List.filter_append, <- Option.toList_filter, <- Option.toList_filter,
                  upload, credentials]
          rw [scans]
          constructor
          · rintro kept ⟨_, other, same, leaks⟩
            cases same
            exact kept leaks
          · intro kept leaks
            exact kept ⟨List.cons_ne_nil first others, statement, rfl, leaks⟩

theorem query_alike_iff (stored : state.store.getConnection conn.id = some conn) (sql : String) (limit : Nat) :
    SentAlike net conn (readContacts env net principal state (.runQuerySync sql limit))
        (readContacts env net principal (withSecrets state conn.id dsn secretKey) (.runQuerySync sql limit)) ↔
      ¬ Leaks env net answers principal state conn dsn secretKey (.read (.runQuerySync sql limit)) := by
  unfold readContacts Leaks
  simp only
  rw [prepareSql_withSecrets]
  cases prepared : prepareSql env principal state sql with
  | error message =>
      refine ⟨fun _ leaks => ?_, fun _ => sentAlike_refl net conn []⟩
      rcases leaks with ⟨statement, same, _⟩
      cases same
  | ok statement =>
      simp only
      rw [scans_sentAlike_iff stored]
      constructor
      · rintro kept ⟨other, same, leaks⟩
        cases same
        exact kept leaks
      · intro kept leaks
        exact kept ⟨statement, rfl, leaks⟩

/-- Every endpoint that changes something wants the admin role. -/
theorem changes_rejected (viewer : principal.isAdmin = false) (call : Call) :
    contacts env net answers principal state (.change call) = [] := by
  unfold contacts
  simp only
  cases guarded : guards principal call with
  | error rejection => rfl
  | ok passed =>
      have admin (only : adminOnly call = true) : False := by
        unfold guards at guarded
        rw [if_pos only] at guarded
        rcases bind_unit_eq_ok.mp guarded with ⟨isAdmin, _⟩
        rw [requireAdmin_eq_ok, viewer] at isAdmin
        cases isAdmin
      cases call with
      | read reading => rfl
      | _ => exact (admin rfl).elim

/-- Without the admin role, the requests that keep the secrets of a connection where
they belong.  The test of a connection is the one that does not: it fills in stored
secrets and contacts the hosts of the request. -/
theorem secrets_stay_iff (env : Outside) (net : Network) (answers : Answers) (principal : Principal) (state : State)
    (conn : Connection) (dsn : String) (secretKey : Option String) (asked : Asked)
    (viewer : principal.isAdmin = false)
    (idsOnce : (state.store.connections.map Connection.id).Nodup)
    (stored : state.store.getConnection conn.id = some conn)
    (apart : (net.connects dsn).map Target.withoutPassword =
      (net.connects conn.sourceDsn).map Target.withoutPassword)
    (laws : ReadsUris net answers) :
    SentAlike net conn (contacts env net answers principal state asked)
        (contacts env net answers principal (withSecrets state conn.id dsn secretKey) asked) ↔
      ¬ Leaks env net answers principal state conn dsn secretKey asked := by
  have listed := (Store.getConnection_eq_some stored).1
  cases asked with
  | testConnection body => exact test_alike_iff laws idsOnce listed body
  | change call =>
      rw [changes_rejected viewer, changes_rejected viewer]
      exact ⟨fun _ leaks => leaks.elim, fun _ => sentAlike_refl net conn []⟩
  | read read =>
      cases read with
      | runQuerySync sql limit => exact query_alike_iff stored sql limit
      | submitQuery sql => exact submit_alike_iff idsOnce stored sql
      | connectionObjects connectionId =>
          exact ⟨fun _ leaks => leaks.elim,
          fun _ => objects_sentAlike env principal idsOnce listed apart connectionId⟩
      | _ => exact ⟨fun _ leaks => leaks.elim, fun _ => sentAlike_refl net conn []⟩

/-- What libpq reads of a DSN with one host and no parameter of interest. -/
def readUri (dsn : String) : Option Target :=
  let text := dsn.toList.drop "postgresql://".length
  let credentials := text.takeWhile (fun char => char != '@')
  let address := (text.dropWhile (fun char => char != '@')).drop 1
  some
    { hosts := [String.ofList (address.takeWhile (fun char => char != ':'))]
      user := (decodeText (credentials.takeWhile (fun char => char != ':'))).getD ""
      password := (decodeText ((credentials.dropWhile (fun char => char != ':')).drop 1)).getD "" }

/-- The characters that `quote` leaves as they are. -/
def unreserved (char : Char) : Bool :=
  char.isAlphanum || ['_', '.', '-', '~'].contains char

theorem toList_quote (text : String) : (quote text).toList = encode unreserved text.toUTF8.toList := by
  unfold quote
  rw [String.toList_ofList]
  rfl

theorem decodeText_quote (text : String) : decodeText (quote text).toList = some text := by
  rw [toList_quote]
  exact decodeText_encode (by decide) text

theorem not_mem_quote {separator : Char} (reserved : unreserved separator = false) (other : separator ≠ '%')
    (noDigit : forall value : Fin 16, separator ≠ hexDigit value) (text : String) :
    separator ∉ (quote text).toList := by
  rw [toList_quote]
  exact not_mem_encode reserved other noDigit _

theorem ne_separator {separator : Char} {before : List Char} (absent : separator ∉ before) :
    forall char, char ∈ before -> (char != separator) = true := by
  intro char listed
  rw [bne_iff_ne]
  intro same
  rw [same] at listed
  exact absent listed

theorem takeWhile_separator {separator : Char} {before : List Char} (absent : separator ∉ before)
    (rest : List Char) : (before ++ separator :: rest).takeWhile (fun char => char != separator) = before := by
  rw [List.takeWhile_append_of_pos (ne_separator absent), List.takeWhile_cons_of_neg (by simp), List.append_nil]

theorem dropWhile_separator {separator : Char} {before : List Char} (absent : separator ∉ before)
    (rest : List Char) :
    (before ++ separator :: rest).dropWhile (fun char => char != separator) = separator :: rest := by
  rw [List.dropWhile_append_of_pos (ne_separator absent), List.dropWhile_cons_of_neg (by simp)]

/-- What stands after the `@`. -/
def addressOf (body : ConnectionIn) : List Char :=
  (body.dbHost.getD "" ++ ":" ++ toString body.dbPort ++ "/" ++ body.dbName.getD "" ++ "?sslmode=" ++
    body.dbSslmode).toList

/-- A built DSN is read back, whatever the password is. -/
theorem readUri_buildDsn (body : ConnectionIn) (password : String) :
    readUri (buildDsn body password) = some
      { hosts := [String.ofList ((addressOf body).takeWhile (fun char => char != ':'))]
        user := body.dbUser.getD ""
        password := password } := by
  have noAt (text : String) : '@' ∉ (quote text).toList := not_mem_quote (by decide) (by decide) (by decide) text
  have noColon (text : String) : ':' ∉ (quote text).toList := not_mem_quote (by decide) (by decide) (by decide) text
  have shape : (buildDsn body password).toList.drop "postgresql://".length =
      ((quote (body.dbUser.getD "")).toList ++ ':' :: (quote password).toList) ++ '@' :: addressOf body := by
    unfold buildDsn addressOf
    simp [String.toList_append]
    rfl
  have credentials : '@' ∉ (quote (body.dbUser.getD "")).toList ++ ':' :: (quote password).toList := by
    rw [List.mem_append, List.mem_cons]
    rintro (user | colon | given)
    · exact noAt _ user
    · cases colon
    · exact noAt _ given
  unfold readUri
  simp only [shape]
  rw [takeWhile_separator credentials, dropWhile_separator credentials, takeWhile_separator (noColon _),
    dropWhile_separator (noColon _), List.drop_one, List.tail_cons, List.drop_one, List.tail_cons,
    decodeText_quote, decodeText_quote, Option.getD_some, Option.getD_some]

/-- The network of a gateway without lake tables. -/
def sampleNetwork : Network where
  connects := readUri
  s3Host region bucket := some (bucket ++ ".s3." ++ region ++ ".amazonaws.com")
  scans _ _ _ := []

def sampleAnswers : Answers where
  dsnPassword dsn := (((readUri dsn).map Target.password).filter
    (fun password => !password.toList.contains (Char.ofNat 0))).getD ""
  testDb _ := none
  ensureBucket _ _ _ _ := none
  undeletedObjects := []
  undeletedRuns := []
  secret := ""
  launchError := none

theorem sampleNetwork_reads : ReadsUris sampleNetwork sampleAnswers where
  nulFree dsn := by
    unfold sampleAnswers
    simp only
    cases kept : ((readUri dsn).map Target.password).filter
        (fun password => !password.toList.contains (Char.ofNat 0)) with
    | none => exact nulFree_empty
    | some password =>
        have clean := (Option.filter_eq_some_iff.mp kept).2
        intro listed
        rw [Bool.not_eq_true', List.contains_eq_mem] at clean
        exact of_decide_eq_false clean listed
  rest body first second _ _ := by
    show (readUri (buildDsn body first)).map _ = (readUri (buildDsn body second)).map _
    rw [readUri_buildDsn, readUri_buildDsn]
    rfl
  password body := by
    apply Or.inl
    intro password target _ read
    change readUri (buildDsn body password) = some target at read
    rw [readUri_buildDsn] at read
    cases read
    rfl

def salesBody : ConnectionIn where
  name := "sales"
  enabled := true
  dbHost := some "db.internal"
  dbPort := 5432
  dbName := some "app"
  dbUser := some "app"
  dbPassword := none
  dbSslmode := "require"
  awsAccessKey := none
  awsSecretKey := none
  awsRegion := "us-east-1"
  lakeBucket := "sales-lake"
  icebergNamespace := "sales"

def salesConnection : Connection where
  id := 1
  name := "sales"
  enabled := true
  sourceDsn := buildDsn salesBody "hunter2"
  awsAccessKey := some "AKIA1"
  awsSecretKey := some "secret"
  awsRegion := "us-east-1"
  lakeBucket := "sales-lake"
  icebergNamespace := "sales"
  syncInclude := ""
  syncExclude := ""
  syncObjectTypes := ""
  syncSchemaBlacklist := ""

def salesState : State where
  store :=
    { connections := [salesConnection], nextConnectionId := 2, selection := [], watermarks := []
      chunkState := [], tokens := [], nextTokenId := 1, users := fun _ => none
      settings := fun _ => none, catalog := [], objects := [], runs := [], nextRunId := 0 }
  objectState := []
  sources _ := .ok []
  runs := []
  views := []
  jobs _ := none

/-- Someone who may only look. -/
def salesViewer : Principal :=
  { sub := "ana", roles := ["viewer"], email := "ana@shop.example", connectionId := none, raw := .tokenId 7 }

/-- The stored name with a host of the request's own, and the password left blank. -/
def otherHost : ConnectionIn :=
  { salesBody with dbHost := some "evil.example" }

theorem salesPassword (password : String) (clean : NulFree password) :
    sampleAnswers.dsnPassword (buildDsn salesBody password) = password := by
  unfold sampleAnswers
  simp only
  rw [readUri_buildDsn, Option.map_some]
  have kept : (some password).filter (fun password => !password.toList.contains (Char.ofNat 0)) =
      some password := by
    apply Option.filter_some_pos
    rw [Bool.not_eq_true', List.contains_eq_mem]
    exact decide_eq_false clean
  rw [kept, Option.getD_some]

theorem sales_apart : (sampleNetwork.connects (buildDsn salesBody "correct horse")).map Target.withoutPassword =
    (sampleNetwork.connects salesConnection.sourceDsn).map Target.withoutPassword :=
  sampleNetwork_reads.rest salesBody _ _ (by decide) (by decide)

theorem connects_otherHost (password : String) : sampleNetwork.connects (buildDsn otherHost password) =
    some { hosts := ["evil.example"], user := "app", password := password } := by
  have host : String.ofList ((addressOf otherHost).takeWhile (fun char => char != ':')) = "evil.example" := by
    decide +kernel
  refine (readUri_buildDsn otherHost password).trans ?_
  rw [host]
  rfl

theorem connects_sales (password : String) : sampleNetwork.connects (buildDsn salesBody password) =
    some { hosts := ["db.internal"], user := "app", password := password } := by
  have host : String.ofList ((addressOf salesBody).takeWhile (fun char => char != ':')) = "db.internal" := by
    decide +kernel
  refine (readUri_buildDsn salesBody password).trans ?_
  rw [host]
  rfl

theorem not_overridden : ¬ Overridden sampleNetwork otherHost := by
  rintro ⟨fixed, replaces⟩
  have first : "hunter2" = fixed := replaces "hunter2" _ (by decide) (connects_otherHost "hunter2")
  have second : "correct horse" = fixed := replaces "correct horse" _ (by decide) (connects_otherHost "correct horse")
  exact absurd (first.trans second.symm) (by decide)

theorem otherHost_leaks : PasswordLeaks sampleNetwork sampleAnswers salesConnection
    (buildDsn salesBody "correct horse") otherHost := by
  refine ⟨rfl, ?_, not_overridden, "evil.example", ?_, ?_⟩
  · have first : sampleAnswers.dsnPassword salesConnection.sourceDsn = "hunter2" :=
      salesPassword "hunter2" (by decide)
    rw [first, salesPassword "correct horse" (by decide)]
    decide
  · unfold requestHosts
    rw [connects_otherHost]
    exact List.mem_singleton.mpr rfl
  · have stored : storedHosts sampleNetwork salesConnection = ["db.internal"] := by
      unfold storedHosts
      exact congrArg (fun target => (target.map Target.hosts).getD []) (connects_sales "hunter2")
    rw [stored]
    decide

/-- The stored password goes to the host of the request. -/
theorem stored_password_sent_elsewhere :
    salesViewer.isAdmin = false ∧
      Contact.database "evil.example" "app" "hunter2" ∈ contacts sampleOutside sampleNetwork sampleAnswers salesViewer
        salesState (.testConnection otherHost) ∧
      ¬ SentAlike sampleNetwork salesConnection
        (contacts sampleOutside sampleNetwork sampleAnswers salesViewer salesState (.testConnection otherHost))
        (contacts sampleOutside sampleNetwork sampleAnswers salesViewer
          (withSecrets salesState 1 (buildDsn salesBody "correct horse") (some "secret"))
          (.testConnection otherHost)) := by
  have found : existing salesState otherHost = some salesConnection := rfl
  refine ⟨rfl, ?_, ?_⟩
  · show _ ∈ testContacts sampleNetwork sampleAnswers salesState otherHost
    have filledIn : sampleAnswers.dsnPassword salesConnection.sourceDsn = "hunter2" :=
      salesPassword "hunter2" (by decide)
    unfold testContacts resolveSecrets
    rw [found]
    apply List.mem_append_left
    simp only [Option.map_some, Option.getD_some, filledIn]
    unfold databaseContacts
    rw [show (nonblank otherHost.dbPassword).getD "hunter2" = "hunter2" from rfl, connects_otherHost]
    exact List.mem_singleton.mpr rfl
  · intro alike
    have kept := (@filledIn_alike_iff sampleNetwork sampleAnswers salesConnection
      (buildDsn salesBody "correct horse") (some "secret") sampleNetwork_reads salesState
      (withSecrets salesState 1 (buildDsn salesBody "correct horse") (some "secret")) otherHost found rfl).mp alike
    exact kept (Or.inl otherHost_leaks)

/-- A test with a password of its own sends only that one. -/
theorem typed_password_sent_elsewhere :
    SentAlike sampleNetwork salesConnection
      (contacts sampleOutside sampleNetwork sampleAnswers salesViewer salesState
        (.testConnection { otherHost with dbPassword := some "guess" }))
      (contacts sampleOutside sampleNetwork sampleAnswers salesViewer
        (withSecrets salesState 1 (buildDsn salesBody "correct horse") (some "secret"))
        (.testConnection { otherHost with dbPassword := some "guess" })) := by
  apply (secrets_stay_iff sampleOutside sampleNetwork sampleAnswers salesViewer salesState salesConnection
    (buildDsn salesBody "correct horse") (some "secret") _ rfl (by decide) rfl sales_apart sampleNetwork_reads).mpr
  rintro ⟨_, leaks | leaks⟩
  · cases leaks.blank
  · exact leaks.differ rfl

end StoredSecrets
end WarehouseSync

import WarehouseSync.Gateway.StoredSecrets
import WarehouseSync.Library.Memo
import WarehouseSync.Library.Transition

namespace WarehouseSync
namespace CachedHandles

open ConfigStore Memo Transition
open StoredSecrets (keyPair salesConnection salesState)

/-!
# Handles that are kept for a connection

`common/s3.py`, `load/iceberg_writer.py` and `common/pg.py` each keep what they
build for a connection in a dictionary of the process, under the connection's id.
Nothing is ever taken out of these dictionaries.
-/

/-- `AWS_ENDPOINT_URL`, if it is set, and the keys of the environment.  They are
read when a handle is built, and do not change while the process runs. -/
structure Environment where
  endpoint : Option String
  keys : String × String
deriving DecidableEq, Repr

/-- A boto3 client; without keys it uses the default chain. -/
structure S3Client where
  region : String
  keys : Option (String × String)
  pathStyle : Bool
deriving DecidableEq, Repr

def buildClient (env : Environment) (conn : Connection) : S3Client :=
  { region := conn.awsRegion, keys := keyPair conn.awsAccessKey conn.awsSecretKey
    pathStyle := env.endpoint.isSome }

/-- The properties of an Iceberg catalog that depend on the connection or on the
environment.  The location of the catalog database is not one of them. -/
structure CatalogProperties where
  warehouse : String
  region : String
  keys : Option (String × String)
  endpoint : Option String
deriving DecidableEq, Repr

/-- With an endpoint, the keys of the environment are the default. -/
def buildCatalog (env : Environment) (conn : Connection) : CatalogProperties :=
  { warehouse := "s3://" ++ conn.lakeBucket ++ "/curated/", region := conn.awsRegion
    keys := (keyPair conn.awsAccessKey conn.awsSecretKey).orElse (fun _ => env.endpoint.map (fun _ => env.keys))
    endpoint := env.endpoint }

structure SourcePool where
  conninfo : String
deriving DecidableEq, Repr

def buildPool (conn : Connection) : SourcePool :=
  { conninfo := conn.sourceDsn }

/-- The stored connections and the three dictionaries of a process.  Nothing but a
call ever writes to a dictionary, and nothing takes a handle out. -/
structure Process where
  store : Store
  clients : Int -> Option S3Client
  catalogs : Int -> Option CatalogProperties
  pools : Int -> Option SourcePool

/-- A process that has not built anything. -/
def Process.fresh (store : Store) : Process :=
  { store := store, clients := fun _ => none, catalogs := fun _ => none, pools := fun _ => none }

def s3Client (env : Environment) (conn : Connection) (process : Process) : S3Client × Process :=
  let (client, clients) := remember process.clients conn.id (buildClient env conn)
  (client, { process with clients := clients })

def catalog (env : Environment) (conn : Connection) (process : Process) : CatalogProperties × Process :=
  let (properties, catalogs) := remember process.catalogs conn.id (buildCatalog env conn)
  (properties, { process with catalogs := catalogs })

def getPool (conn : Connection) (process : Process) : SourcePool × Process :=
  let (pool, pools) := remember process.pools conn.id (buildPool conn)
  (pool, { process with pools := pools })

/-- The arguments of `upsert_connection`; a DSN that is left out is kept.  The other
columns are set to what is given. -/
structure Upsert where
  name : String
  enabled : Bool
  sourceDsn : Option String
  awsAccessKey : Option String
  awsSecretKey : Option String
  awsRegion : String
  lakeBucket : String
  icebergNamespace : String
deriving DecidableEq, Repr

def Upsert.columns (edit : Upsert) (dsn : String) : Store.ConnectionColumns :=
  { name := edit.name, enabled := edit.enabled, sourceDsn := dsn, awsAccessKey := edit.awsAccessKey
    awsSecretKey := edit.awsSecretKey, awsRegion := edit.awsRegion, lakeBucket := edit.lakeBucket
    icebergNamespace := edit.icebergNamespace }

/-- `upsert_connection`.  The DSN of a new row must not be NULL; an update of an id
that is not there changes no row.  None of the handles of the connection is dropped
by it. -/
def upsertConnection (store : Store) (connectionId : Option Int) (edit : Upsert) : Option Store :=
  match connectionId with
  | none => edit.sourceDsn.bind (fun dsn => store.insertConnection (edit.columns dsn))
  | some id =>
      match store.getConnection id with
      | none => some store
      | some conn => store.updateConnection id (edit.columns (edit.sourceDsn.getD conn.sourceDsn))

inductive Use where
  | s3Client
  | catalog
  | getPool
deriving DecidableEq, Repr

/-- An edit of a connection or a call that wants a handle, in the one process that
is followed. -/
inductive Event where
  | upsert (connectionId : Option Int) (edit : Upsert)
  | call (use : Use) (connectionId : Int)
deriving DecidableEq, Repr

inductive Handle where
  | client (client : S3Client)
  | catalog (properties : CatalogProperties)
  | pool (pool : SourcePool)
deriving DecidableEq, Repr

/-- What a call returns, and the process after it.  The three kinds of handle have
dictionaries of their own, so a call of one kind builds nothing for another. -/
def call (env : Environment) (use : Use) (conn : Connection) (process : Process) : Handle × Process :=
  match use with
  | .s3Client => ((s3Client env conn process).map Handle.client id)
  | .catalog => ((catalog env conn process).map Handle.catalog id)
  | .getPool => ((getPool conn process).map Handle.pool id)

/-- A call gets the connection as it is stored now.  Whether it also gets a handle
for it depends on the dictionary, which is looked up by the id alone. -/
def step (env : Environment) (process : Process) : Event -> Option Process
  | .upsert connectionId edit =>
      (upsertConnection process.store connectionId edit).map (fun store => { process with store := store })
  | .call use connectionId =>
      (process.store.getConnection connectionId).map (fun conn => (call env use conn process).2)

/-- The handle that the settings of a connection make.  It is what a call returns
when it has to build the handle. -/
def built (env : Environment) : Use -> Connection -> Handle
  | .s3Client, conn => .client (buildClient env conn)
  | .catalog, conn => .catalog (buildCatalog env conn)
  | .getPool, conn => .pool (buildPool conn)

/-- A call returns the handle for the current settings.  An edit returns nothing, so
there is nothing to ask of it. -/
def ReturnsCurrent (env : Environment) (process : Process) : Event -> Prop
  | .call use connectionId => forall conn, process.store.getConnection connectionId = some conn ->
      (call env use conn process).1 = built env use conn
  | .upsert _ _ => True

/-- Any two calls of one kind for one connection find the same settings, as far as
the handle depends on them.  It is a condition on the calls and edits alone, and
does not look at the dictionaries. -/
def SettingsStand (env : Environment) (start : Process) (events : List Event) : Prop :=
  forall use connectionId first middle rest earlier later before after,
    events = first ++ .call use connectionId :: (middle ++ .call use connectionId :: rest) ->
    run (step env) start first = some earlier ->
    run (step env) start (first ++ .call use connectionId :: middle) = some later ->
    earlier.store.getConnection connectionId = some before ->
    later.store.getConnection connectionId = some after ->
      built env use before = built env use after

/-- The handle in the dictionary for that kind. -/
def Process.held (process : Process) : Use -> Int -> Option Handle
  | .s3Client, connectionId => (process.clients connectionId).map Handle.client
  | .catalog, connectionId => (process.catalogs connectionId).map Handle.catalog
  | .getPool, connectionId => (process.pools connectionId).map Handle.pool

variable {env : Environment} {process next : Process} {use other : Use} {conn : Connection}
  {connectionId : Int} {handle : Handle}

theorem call_fst (env : Environment) (use : Use) (conn : Connection) (process : Process) :
    (call env use conn process).1 = (process.held use conn.id).getD (built env use conn) := by
  cases use with
  | s3Client =>
      change Handle.client (remember process.clients conn.id (buildClient env conn)).1 = _
      rw [remember_fst]
      exact (Option.getD_map Handle.client _ _).symm
  | catalog =>
      change Handle.catalog (remember process.catalogs conn.id (buildCatalog env conn)).1 = _
      rw [remember_fst]
      exact (Option.getD_map Handle.catalog _ _).symm
  | getPool =>
      change Handle.pool (remember process.pools conn.id (buildPool conn)).1 = _
      rw [remember_fst]
      exact (Option.getD_map Handle.pool _ _).symm

theorem held_call_self (env : Environment) (use : Use) (conn : Connection) (process : Process) :
    (call env use conn process).2.held use conn.id = some (call env use conn process).1 := by
  cases use with
  | s3Client =>
      change ((remember process.clients conn.id (buildClient env conn)).2 conn.id).map Handle.client =
        some (Handle.client (remember process.clients conn.id (buildClient env conn)).1)
      rw [remember_self, remember_fst]
      rfl
  | catalog =>
      change ((remember process.catalogs conn.id (buildCatalog env conn)).2 conn.id).map Handle.catalog =
        some (Handle.catalog (remember process.catalogs conn.id (buildCatalog env conn)).1)
      rw [remember_self, remember_fst]
      rfl
  | getPool =>
      change ((remember process.pools conn.id (buildPool conn)).2 conn.id).map Handle.pool =
        some (Handle.pool (remember process.pools conn.id (buildPool conn)).1)
      rw [remember_self, remember_fst]
      rfl

/-- A dictionary whose entries are read as handles. -/
theorem map_remember_cases {β : Type} {make : β -> Handle} {held : Int -> Option β} {key : Int} {fresh : β}
    (kept : ((remember held key fresh).2 connectionId).map make = some handle) :
    (held connectionId).map make = some handle ∨ (connectionId = key ∧ handle = make fresh) := by
  rcases Option.map_eq_some_iff.mp kept with ⟨value, found, rfl⟩
  rcases remember_eq_some found with before | ⟨rfl, rfl⟩
  · exact Or.inl (congrArg (Option.map make) before)
  · exact Or.inr ⟨rfl, rfl⟩

theorem map_remember_of_some {β : Type} {make : β -> Handle} {held : Int -> Option β}
    (kept : (held connectionId).map make = some handle) (key : Int) (fresh : β) :
    ((remember held key fresh).2 connectionId).map make = some handle := by
  rcases Option.map_eq_some_iff.mp kept with ⟨value, found, rfl⟩
  exact congrArg (Option.map make) (remember_of_some found key fresh)

theorem held_call_of_some (kept : process.held other connectionId = some handle) (use : Use) (conn : Connection) :
    (call env use conn process).2.held other connectionId = some handle := by
  cases use with
  | s3Client =>
      cases other with
      | s3Client => exact map_remember_of_some kept conn.id (buildClient env conn)
      | catalog => exact kept
      | getPool => exact kept
  | catalog =>
      cases other with
      | s3Client => exact kept
      | catalog => exact map_remember_of_some kept conn.id (buildCatalog env conn)
      | getPool => exact kept
  | getPool =>
      cases other with
      | s3Client => exact kept
      | catalog => exact kept
      | getPool => exact map_remember_of_some kept conn.id (buildPool conn)

/-- A call only adds the handle that it built itself. -/
theorem held_call_cases (kept : (call env use conn process).2.held other connectionId = some handle) :
    process.held other connectionId = some handle ∨
      (other = use ∧ connectionId = conn.id ∧ handle = built env use conn) := by
  have own : forall same : other = use, process.held other connectionId = some handle ∨
      (connectionId = conn.id ∧ handle = built env use conn) -> process.held other connectionId = some handle ∨
        (other = use ∧ connectionId = conn.id ∧ handle = built env use conn) :=
    fun same either => either.imp id (fun parts => ⟨same, parts⟩)
  cases use with
  | s3Client =>
      cases other with
      | s3Client => exact own rfl (map_remember_cases kept)
      | catalog => exact Or.inl kept
      | getPool => exact Or.inl kept
  | catalog =>
      cases other with
      | s3Client => exact Or.inl kept
      | catalog => exact own rfl (map_remember_cases kept)
      | getPool => exact Or.inl kept
  | getPool =>
      cases other with
      | s3Client => exact Or.inl kept
      | catalog => exact Or.inl kept
      | getPool => exact own rfl (map_remember_cases kept)

/-! ## What a step does -/

theorem step_cases {event : Event} (taken : step env process event = some next) :
    (Exists fun connectionId : Option Int => Exists fun edit : Upsert => Exists fun store : Store =>
      event = .upsert connectionId edit ∧ upsertConnection process.store connectionId edit = some store ∧
        next = { process with store := store }) ∨
    (Exists fun use : Use => Exists fun conn : Connection => event = .call use conn.id ∧
      process.store.getConnection conn.id = some conn ∧ next = (call env use conn process).2) := by
  cases event with
  | upsert connectionId edit =>
      rcases Option.map_eq_some_iff.mp taken with ⟨store, done, rfl⟩
      exact Or.inl ⟨connectionId, edit, store, rfl, done, rfl⟩
  | call use connectionId =>
      rcases Option.map_eq_some_iff.mp taken with ⟨conn, found, rfl⟩
      cases (Store.getConnection_eq_some found).2
      exact Or.inr ⟨use, conn, rfl, found, rfl⟩

/-- No step takes a handle out or replaces it. -/
theorem held_preserved {event : Event} (kept : process.held use connectionId = some handle)
    (taken : step env process event = some next) : next.held use connectionId = some handle := by
  rcases step_cases taken with ⟨_, edit, store, _, _, rfl⟩ | ⟨used, conn, _, _, rfl⟩
  · cases use <;> exact kept
  · exact held_call_of_some kept used conn

/-- The handle was built in an earlier call, from the settings of that time.  This
is the invariant that ties the dictionaries to the history. -/
def BuiltBefore (env : Environment) (start : Process) (done : List Event) (process : Process) : Prop :=
  forall use connectionId handle, process.held use connectionId = some handle ->
    Exists fun first : List Event => Exists fun middle : List Event => Exists fun earlier : Process =>
      Exists fun conn : Connection => done = first ++ .call use connectionId :: middle ∧
        run (step env) start first = some earlier ∧
        earlier.store.getConnection connectionId = some conn ∧ handle = built env use conn

theorem builtBefore_of_run {store : Store} {events : List Event}
    (reached : run (step env) (Process.fresh store) events = some process) :
    BuiltBefore env (Process.fresh store) events process := by
  apply run_history _ _ reached
  · intro use connectionId handle kept
    cases use <;> cases kept
  · intro done event middle next before built_before taken use connectionId handle kept
    have extended : middle.held use connectionId = some handle ->
        Exists fun first : List Event => Exists fun rest : List Event => Exists fun earlier : Process =>
          Exists fun conn : Connection => done ++ [event] = first ++ .call use connectionId :: rest ∧
            run (step env) (Process.fresh store) first = some earlier ∧
            earlier.store.getConnection connectionId = some conn ∧ handle = built env use conn := by
      intro already
      rcases built_before use connectionId handle already with ⟨first, rest, earlier, conn, rfl, ran, found, made⟩
      exact ⟨first, rest ++ [event], earlier, conn, by rw [List.append_assoc, List.cons_append], ran, found, made⟩
    rcases step_cases taken with ⟨_, edit, changed, _, _, rfl⟩ | ⟨used, conn, rfl, found, rfl⟩
    · apply extended
      cases use <;> exact kept
    · rcases held_call_cases kept with already | ⟨rfl, rfl, rfl⟩
      · exact extended already
      · exact ⟨done, [], middle, conn, rfl, before, found, rfl⟩

/-- From a process that has built nothing, calls return handles for the current
settings exactly if no two calls for one handle find different ones.  An edit of
keys is therefore not seen by a process that has used the old ones. -/
theorem returns_current_iff (env : Environment) (store : Store) (events : List Event) :
    Along (step env) (ReturnsCurrent env) (Process.fresh store) events ↔
      SettingsStand env (Process.fresh store) events := by
  constructor
  · intro along use connectionId first middle rest earlier later before after split ran ranOn found changed
    have splits := along_iff_splits.mp along
    have atFirst := splits first (.call use connectionId) (middle ++ .call use connectionId :: rest) earlier
      split ran before found
    have atSecond := splits (first ++ .call use connectionId :: middle) (.call use connectionId) rest later
      (by rw [split, List.append_assoc, List.cons_append]) ranOn after changed
    rcases run_append_eq_some.mp ranOn with ⟨_, same, onward⟩
    cases ran.symm.trans same
    rcases run_cons_eq_some.mp onward with ⟨next, taken, between⟩
    have number := (Store.getConnection_eq_some found).2
    have kept : next.held use connectionId = some (built env use before) := by
      have stepped : step env earlier (.call use connectionId) = some (call env use before earlier).2 :=
        congrArg (Option.map _) found
      cases taken.symm.trans stepped
      rw [← atFirst, ← number]
      exact held_call_self env use before earlier
    have still : later.held use connectionId = some (built env use before) :=
      run_invariant_always (fun _ _ _ held taken => held_preserved held taken) kept between
    rw [call_fst, (Store.getConnection_eq_some changed).2, still] at atSecond
    exact atSecond
  · intro stand
    apply along_iff_splits.mpr
    intro done event rest process split ran
    cases event with
    | upsert connectionId edit => trivial
    | call use connectionId =>
        intro conn found
        rw [call_fst, (Store.getConnection_eq_some found).2]
        cases kept : process.held use connectionId with
        | none => rfl
        | some handle =>
            rcases builtBefore_of_run ran use connectionId handle kept with
              ⟨first, middle, earlier, before, rfl, ranFirst, foundFirst, made⟩
            rw [Option.getD_some, made]
            exact stand use connectionId first middle rest earlier process before conn
              (by rw [split, List.append_assoc, List.cons_append]) ranFirst ran foundFirst found

/-- New keys for the connection. -/
def rotatedKeys : Upsert :=
  { name := "sales", enabled := true, sourceDsn := none, awsAccessKey := some "AKIA2"
    awsSecretKey := some "newer", awsRegion := "us-east-1", lakeBucket := "sales-lake"
    icebergNamespace := "sales" }

/-- After the keys are replaced, the client still signs with the old ones. -/
theorem replaced_keys_are_not_used :
    Not (Along (step ⟨none, ("test", "test")⟩) (ReturnsCurrent ⟨none, ("test", "test")⟩)
      (Process.fresh salesState.store)
      [.call .s3Client 1, .upsert (some 1) rotatedKeys, .call .s3Client 1]) := by
  intro along
  have last := (((along.2 _ rfl).2 _ rfl).1 _ rfl)
  exact absurd last (by decide)

end CachedHandles
end WarehouseSync

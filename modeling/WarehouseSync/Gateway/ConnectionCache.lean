import WarehouseSync.Gateway.CachedHandles

namespace WarehouseSync
namespace ConnectionCache

open ConfigStore Transition
open CachedHandles (Upsert upsertConnection)
open StoredSecrets (salesConnection salesState)

/-!
# The cache of connections (`common/config_store.py`)

The threads of a process share one cache of the connection records.  A reader
looks at the cache, and loads it again where necessary, while it holds the lock.
A writer commits first and clears the cache afterwards, which takes the lock.
So a load that missed a commit is over before the cache is cleared.
-/

/-- The arguments of `upsert_connection`, with the ones that say what is synced.
They are added here because the connections that are read back have them. -/
structure UpsertArgs extends Upsert where
  syncInclude : String
  syncExclude : String
  syncObjectTypes : String
  syncSchemaBlacklist : String
deriving DecidableEq, Repr

/-- The columns that say what is synced are always replaced. -/
def UpsertArgs.sync (args : UpsertArgs) (id : Int) (conn : Connection) : Connection :=
  if conn.id = id then
    { conn with
      syncInclude := args.syncInclude, syncExclude := args.syncExclude
      syncObjectTypes := args.syncObjectTypes, syncSchemaBlacklist := args.syncSchemaBlacklist }
  else conn

inductive Write where
  | upsert (connectionId : Option Int) (args : UpsertArgs)
  | delete (connectionId : Int)
deriving DecidableEq, Repr

/-- The database after the write, unless it violates a constraint.  A write that
fails is rolled back and leaves nothing to see. -/
def apply (store : Store) : Write -> Option Store
  | .upsert connectionId args =>
      (upsertConnection store connectionId args.toUpsert).map (fun after =>
        { after with
          connections := after.connections.map (args.sync (connectionId.getD store.nextConnectionId)) })
  | .delete connectionId => some (store.deleteConnection connectionId)

/-- A call that reads the connections: all of them, or one by its id. -/
inductive Request where
  | listConnections (enabledOnly force : Bool)
  | getConnection (connectionId : Int)
deriving DecidableEq, Repr

inductive Answer where
  | connections (conns : List Connection)
  | connection (found : Option Connection)
deriving DecidableEq, Repr

/-- The answer that some connections give. -/
def Request.on (conns : List Connection) : Request -> Answer
  | .listConnections enabledOnly _ =>
      .connections (if enabledOnly then conns.filter (fun conn => conn.enabled) else conns)
  | .getConnection connectionId => .connection (conns.find? (fun conn => decide (conn.id = connectionId)))

/-- A call of a write has its place among the commits from its commit on.  A call
that reads waits for the lock with the time it began at; `again` is the second pass
of `get_connection`. -/
inductive Call where
  | committed (place : Nat) (write : Write)
  | returned (place : Nat) (write : Write)
  | waiting (request : Request) (again : Bool) (now : Int)
  | missed (connectionId : Int)
  | answered (answer : Answer)
  | raised
deriving DecidableEq, Repr

/-- `commits` are the writes in the order in which they were committed.  The cache
and the calls are those of one process. -/
structure State where
  store : Store
  commits : List Write
  cache : Option (Int × List Connection)
  calls : Nat -> Option Call

def State.fresh (store : Store) : State :=
  { store := store, commits := [], cache := none, calls := fun _ => none }

def State.setCall (state : State) (call : Nat) (status : Call) : State :=
  { state with calls := Function.update state.calls call (some status) }

/-- `_CACHE_TTL_SECONDS`, in nanoseconds. -/
def cacheTtl : Int := 30000000000

/-- The argument `force`, which the second pass of `get_connection` sets. -/
def Request.forced : Request -> Bool -> Bool
  | .listConnections _ force, _ => force
  | .getConnection _, again => again

/-- The section of `list_connections` that holds the lock.  The database is read
inside of it, so two threads do not put an older list over a newer one. -/
def State.refreshed (state : State) (force : Bool) (now : Int) : Int × List Connection :=
  Memo.refreshed cacheTtl state.cache force now state.store.connections

/-- What a call does with the connections it got.  A connection that is not among
them is looked for once more with a forced read, since it may be newer than the
cache. -/
def outcome (conns : List Connection) (again : Bool) : Request -> Call
  | .listConnections enabledOnly force => .answered ((Request.listConnections enabledOnly force).on conns)
  | .getConnection connectionId =>
      match conns.find? (fun conn => decide (conn.id = connectionId)) with
      | some conn => .answered (.connection (some conn))
      | none => if again then .answered (.connection none) else .missed connectionId

/-- One step of a call.  A commit and the invalidation after it are two steps, and
other threads may read and fill the cache in between. -/
inductive Event where
  | commit (call : Nat) (write : Write)
  | invalidate (call : Nat)
  | ask (call : Nat) (request : Request) (now : Int)
  | lockedSection (call : Nat)
  | retry (call : Nat) (now : Int)
  | raise (call : Nat)
deriving DecidableEq, Repr

/-- A write that fails changes nothing and is left out.  `retry` begins the second
pass of `get_connection`, and `raise` is a load that fails. -/
def step (state : State) : Event -> Option State
  | .commit call write =>
      match state.calls call, apply state.store write with
      | none, some store => some ({ state with store := store, commits := state.commits ++ [write] }.setCall
          call (.committed state.commits.length write))
      | _, _ => none
  | .invalidate call =>
      match state.calls call with
      | some (.committed place write) =>
          some ({ state with cache := none }.setCall call (.returned place write))
      | _ => none
  | .ask call request now =>
      match state.calls call with
      | none => some (state.setCall call (.waiting request false now))
      | some _ => none
  | .lockedSection call =>
      match state.calls call with
      | some (.waiting request again now) =>
          let cache := state.refreshed (request.forced again) now
          some ({ state with cache := some cache }.setCall call (outcome cache.2 again request))
      | _ => none
  | .retry call now =>
      match state.calls call with
      | some (.missed connectionId) => some (state.setCall call (.waiting (.getConnection connectionId) true now))
      | _ => none
  | .raise call =>
      match state.calls call with
      | some (.waiting request again now) =>
          if Memo.mustLoad cacheTtl state.cache (request.forced again) now = true then
            some (state.setCall call .raised)
          else none
      | _ => none

/-- The connections are those after the write at this place and some number of the
writes that were committed after it.  So they show that write, or what a later one
has made of it. -/
def Since (start : Store) (commits : List Write) (place : Nat) (conns : List Connection) : Prop :=
  Exists fun upTo : Nat => Exists fun seen : Store =>
    place < upTo ∧ upTo ≤ commits.length ∧ run apply start (commits.take upTo) = some seen ∧
      conns = seen.connections

/-- The answer is read from such connections.  It is a statement about the commits
and the answer only, with no cache in it. -/
def Reflects (start : Store) (commits : List Write) (place : Nat) (request : Request) (answer : Answer) : Prop :=
  Exists fun conns : List Connection => Since start commits place conns ∧ answer = request.on conns

/-- Everything a step can do to the state, with the guards of each step.  The
invariants are proved by cases on it. -/
inductive Effect (state : State) : Event -> State -> Prop
  | commit {call : Nat} {write : Write} {store : Store} (free : state.calls call = none)
      (done : apply state.store write = some store) :
      Effect state (.commit call write)
        ({ state with store := store, commits := state.commits ++ [write] }.setCall call
          (.committed state.commits.length write))
  | invalidate {call place : Nat} {write : Write}
      (committed : state.calls call = some (.committed place write)) :
      Effect state (.invalidate call) ({ state with cache := none }.setCall call (.returned place write))
  | ask {call : Nat} {request : Request} {now : Int} (free : state.calls call = none) :
      Effect state (.ask call request now) (state.setCall call (.waiting request false now))
  | lockedSection {call : Nat} {request : Request} {again : Bool} {now : Int}
      {cache : Int × List Connection} (waiting : state.calls call = some (.waiting request again now))
      (same : cache = state.refreshed (request.forced again) now) :
      Effect state (.lockedSection call)
        ({ state with cache := some cache }.setCall call (outcome cache.2 again request))
  | retry {call : Nat} {connectionId now : Int} (missed : state.calls call = some (.missed connectionId)) :
      Effect state (.retry call now) (state.setCall call (.waiting (.getConnection connectionId) true now))
  | raise {call : Nat} {request : Request} {again : Bool} {now : Int}
      (waiting : state.calls call = some (.waiting request again now)) :
      Effect state (.raise call) (state.setCall call .raised)

variable {start : Store} {state next : State} {event : Event}

theorem effect_of_step (taken : step state event = some next) : Effect state event next := by
  cases event with
  | commit call write =>
      simp only [step] at taken
      split at taken
      · rename_i store free done
        cases taken
        exact Effect.commit free done
      · cases taken
  | invalidate call =>
      simp only [step] at taken
      split at taken
      · rename_i place write committed
        cases taken
        exact Effect.invalidate committed
      · cases taken
  | ask call request now =>
      simp only [step] at taken
      split at taken
      · rename_i free
        cases taken
        exact Effect.ask free
      · cases taken
  | lockedSection call =>
      simp only [step] at taken
      split at taken
      · rename_i request again now waiting
        cases taken
        exact Effect.lockedSection waiting rfl
      · cases taken
  | retry call now =>
      simp only [step] at taken
      split at taken
      · rename_i connectionId missed
        cases taken
        exact Effect.retry missed
      · cases taken
  | raise call =>
      simp only [step] at taken
      split at taken
      · rename_i request again now waiting
        split at taken
        · cases taken
          exact Effect.raise waiting
        · cases taken
      · cases taken

theorem calls_setCall {call other : Nat} {status found : Call}
    (held : (state.setCall call status).calls other = some found) :
    (other = call ∧ found = status) ∨ state.calls other = some found :=
  (Memo.update_eq_some held).symm

theorem calls_setCall_self (call : Nat) (status : Call) :
    (state.setCall call status).calls call = some status := by
  simp only [State.setCall, Function.update_self]

theorem calls_setCall_other {call other : Nat} {status : Call} (different : other ≠ call) :
    (state.setCall call status).calls other = state.calls other := by
  simp only [State.setCall, Function.update_of_ne different]

/-- A call that got its connections has answered from them, or it is the first
pass of `get_connection` and found nothing. -/
theorem outcome_cases (conns : List Connection) (again : Bool) (request : Request) :
    outcome conns again request = .answered (request.on conns) ∨
      Exists fun connectionId : Int => request = .getConnection connectionId ∧
        outcome conns again request = .missed connectionId := by
  cases request with
  | listConnections enabledOnly force => exact Or.inl rfl
  | getConnection connectionId =>
      simp only [outcome, Request.on]
      cases conns.find? (fun conn => decide (conn.id = connectionId)) with
      | some conn => exact Or.inl rfl
      | none =>
          cases again with
          | true => exact Or.inl rfl
          | false => exact Or.inr ⟨connectionId, rfl, rfl⟩

/-! ## What the cache holds -/

/-- A write that was committed is found at its place.  Commits are only ever
appended, so the place does not move. -/
def Call.Placed (commits : List Write) : Call -> Prop
  | .committed place write => commits[place]? = some write
  | .returned place write => commits[place]? = some write
  | .waiting _ _ _ | .missed _ | .answered _ | .raised => True

/-- What holds in every state of the process.  The last field is the one that
matters: once a write has returned, whatever is cached is from after it. -/
structure Consistent (start : Store) (state : State) : Prop where
  current : run apply start state.commits = some state.store
  placed : forall call status, state.calls call = some status -> status.Placed state.commits
  cached : forall call place write stamp conns, state.calls call = some (.returned place write) ->
    state.cache = some (stamp, conns) -> Since start state.commits place conns

theorem consistent_fresh (start : Store) : Consistent start (State.fresh start) where
  current := rfl
  placed := fun _ _ held => by cases held
  cached := fun _ _ _ _ _ held => by cases held

theorem placed_append {commits : List Write} {place : Nat} {write : Write}
    (placed : commits[place]? = some write) (more : List Write) : (commits ++ more)[place]? = some write := by
  have inside := (List.getElem?_eq_some_iff.mp placed).1
  exact (List.getElem?_append_left inside).trans placed

theorem Call.Placed.append {commits : List Write} {status : Call} (placed : status.Placed commits)
    (more : List Write) : status.Placed (commits ++ more) := by
  cases status with
  | committed place write => exact placed_append placed more
  | returned place write => exact placed_append placed more
  | waiting request again now => trivial
  | missed connectionId => trivial
  | answered answer => trivial
  | raised => trivial

/-- Later commits do not make connections older. -/
theorem Since.append {commits : List Write} {place : Nat} {conns : List Connection}
    (since : Since start commits place conns) (more : List Write) :
    Since start (commits ++ more) place conns := by
  rcases since with ⟨upTo, seen, after, within, replayed, same⟩
  refine ⟨upTo, seen, after, ?_, ?_, same⟩
  · rw [List.length_append]
    exact Nat.le_add_right_of_le within
  · rw [List.take_append_of_le_length within]
    exact replayed

/-- What is loaded now is not older than any write that was committed. -/
theorem Consistent.since_now (consistent : Consistent start state) {call place : Nat} {write : Write}
    (returned : state.calls call = some (.returned place write)) :
    Since start state.commits place state.store.connections := by
  have placed : state.commits[place]? = some write := consistent.placed call _ returned
  have inside := (List.getElem?_eq_some_iff.mp placed).1
  refine ⟨state.commits.length, state.store, inside, Nat.le_refl _, ?_, rfl⟩
  rw [List.take_length]
  exact consistent.current

/-- The lock section gets nothing older than a write that has returned. -/
theorem Consistent.since_refreshed (consistent : Consistent start state) {call place : Nat} {write : Write}
    (returned : state.calls call = some (.returned place write)) (force : Bool) (now : Int) :
    Since start state.commits place (state.refreshed force now).2 := by
  rcases Memo.refreshed_cases cacheTtl state.cache force now state.store.connections with kept | loaded
  · exact consistent.cached call place write _ _ returned kept
  · rw [State.refreshed, loaded]
    exact consistent.since_now returned

/-- A new status keeps the invariant, unless a write has just returned. -/
theorem Consistent.setCall (consistent : Consistent start state) (call : Nat) {status : Call}
    (placed : status.Placed state.commits) (reads : forall place write, status ≠ .returned place write) :
    Consistent start (state.setCall call status) where
  current := consistent.current
  placed := by
    intro other found held
    rcases calls_setCall held with ⟨_, rfl⟩ | before
    · exact placed
    · exact consistent.placed other found before
  cached := by
    intro other place write stamp conns held cached
    rcases calls_setCall held with ⟨_, same⟩ | before
    · exact absurd same.symm (reads place write)
    · exact consistent.cached other place write stamp conns before cached

/-- A call that got its connections is no write. -/
theorem outcome_reads (conns : List Connection) (again : Bool) (request : Request) (commits : List Write) :
    (outcome conns again request).Placed commits ∧
      forall place write, outcome conns again request ≠ .returned place write := by
  rcases outcome_cases conns again request with answered | ⟨connectionId, _, missed⟩
  · rw [answered]
    exact ⟨trivial, fun _ _ => by simp⟩
  · rw [missed]
    exact ⟨trivial, fun _ _ => by simp⟩

/-- One more commit, by a call that has not returned. -/
theorem Consistent.commit (consistent : Consistent start state) {write : Write} {store : Store}
    (done : apply state.store write = some store) :
    Consistent start { state with store := store, commits := state.commits ++ [write] } where
  current := run_concat consistent.current done
  placed := fun call status held => (consistent.placed call status held).append [write]
  cached := fun call place other stamp conns held cached =>
    (consistent.cached call place other stamp conns held cached).append [write]

theorem Consistent.preserved (consistent : Consistent start state) (taken : step state event = some next) :
    Consistent start next := by
  cases effect_of_step taken with
  | @commit call write store free done =>
      exact (consistent.commit done).setCall call List.getElem?_concat_length (fun _ _ => by simp)
  | @invalidate call place write committed =>
      have placed : state.commits[place]? = some write := consistent.placed call _ committed
      -- With the cache gone, nothing in it can be older than the write that returns.
      refine ⟨consistent.current, ?_, fun _ _ _ _ _ _ cached => by cases cached⟩
      intro other found held
      rcases calls_setCall held with ⟨_, rfl⟩ | before
      · exact placed
      · exact consistent.placed other found before
  | ask free => exact consistent.setCall _ trivial (fun _ _ => by simp)
  | @lockedSection call request again now cache waiting same =>
      have loaded : Consistent start { state with cache := some cache } := by
        refine ⟨consistent.current, consistent.placed, ?_⟩
        intro other place write stamp conns returned cached
        have fresh := consistent.since_refreshed returned (request.forced again) now
        rw [← same] at fresh
        cases cached
        exact fresh
      have reads := outcome_reads cache.2 again request state.commits
      exact loaded.setCall call reads.1 reads.2
  | retry missed => exact consistent.setCall _ trivial (fun _ _ => by simp)
  | raise waiting => exact consistent.setCall _ trivial (fun _ _ => by simp)

/-- How far a call that began after a write has come, and that its answer, if it has
one, shows the write. -/
inductive Reading (start : Store) (state : State) (place reader : Nat) (request : Request) : Prop
  | waiting {again : Bool} {now : Int} (held : state.calls reader = some (.waiting request again now))
  | missed {connectionId : Int} (same : request = .getConnection connectionId)
      (held : state.calls reader = some (.missed connectionId))
  | answered {answer : Answer} (held : state.calls reader = some (.answered answer))
      (reflects : Reflects start state.commits place request answer)
  | raised (held : state.calls reader = some .raised)

/-- What a step writes is written at the end. -/
theorem exists_commits (taken : step state event = some next) :
    Exists fun more : List Write => next.commits = state.commits ++ more := by
  cases effect_of_step taken with
  | @commit call write store free done => exact ⟨[write], rfl⟩
  | invalidate committed => exact ⟨[], (List.append_nil _).symm⟩
  | ask free => exact ⟨[], (List.append_nil _).symm⟩
  | lockedSection waiting same => exact ⟨[], (List.append_nil _).symm⟩
  | retry missed => exact ⟨[], (List.append_nil _).symm⟩
  | raise waiting => exact ⟨[], (List.append_nil _).symm⟩

theorem different_calls {call other : Nat} {status found : Option Call} (held : state.calls call = status)
    (otherHeld : state.calls other = found) (different : found ≠ status) : other ≠ call := by
  rintro rfl
  exact different (otherHeld.symm.trans held)

/-- A write that has returned stays so. -/
theorem returned_preserved {writer place : Nat} {write : Write}
    (written : state.calls writer = some (.returned place write)) (taken : step state event = some next) :
    next.calls writer = some (.returned place write) := by
  cases effect_of_step taken with
  | commit free done => exact (calls_setCall_other (different_calls free written (by simp))).trans written
  | invalidate committed =>
      exact (calls_setCall_other (different_calls committed written (by simp))).trans written
  | ask free => exact (calls_setCall_other (different_calls free written (by simp))).trans written
  | lockedSection waiting same =>
      exact (calls_setCall_other (different_calls waiting written (by simp))).trans written
  | retry missed => exact (calls_setCall_other (different_calls missed written (by simp))).trans written
  | raise waiting => exact (calls_setCall_other (different_calls waiting written (by simp))).trans written

variable {place reader : Nat} {request : Request}

/-- The status of a reading call, for comparison with those of other calls. -/
theorem Reading.status (reading : Reading start state place reader request) :
    Exists fun status : Call => state.calls reader = some status ∧
      forall elsewhere write, status ≠ .committed elsewhere write := by
  cases reading with
  | waiting held => exact ⟨_, held, fun _ _ => by simp⟩
  | missed same held => exact ⟨_, held, fun _ _ => by simp⟩
  | answered held reflects => exact ⟨_, held, fun _ _ => by simp⟩
  | raised held => exact ⟨_, held, fun _ _ => by simp⟩

/-- A step of another call at most adds commits. -/
theorem Reading.other (reading : Reading start state place reader request)
    (same : next.calls reader = state.calls reader) {more : List Write}
    (commits : next.commits = state.commits ++ more) : Reading start next place reader request := by
  cases reading with
  | waiting held => exact Reading.waiting (same.trans held)
  | missed isGet held => exact Reading.missed isGet (same.trans held)
  | answered held reflects =>
      rcases reflects with ⟨conns, since, read⟩
      refine Reading.answered (same.trans held) ⟨conns, ?_, read⟩
      rw [commits]
      exact since.append more
  | raised held => exact Reading.raised (same.trans held)

/-- A call that waits for the lock waits for its own request. -/
theorem Reading.asked (reading : Reading start state place reader request) {asked : Request} {again : Bool}
    {now : Int} (waiting : state.calls reader = some (.waiting asked again now)) : asked = request := by
  cases reading with
  | waiting held =>
      cases waiting.symm.trans held
      rfl
  | missed same held => cases waiting.symm.trans held
  | answered held reflects => cases waiting.symm.trans held
  | raised held => cases waiting.symm.trans held

theorem Reading.asked_of_missed (reading : Reading start state place reader request) {connectionId : Int}
    (missed : state.calls reader = some (.missed connectionId)) : request = .getConnection connectionId := by
  cases reading with
  | waiting held => cases missed.symm.trans held
  | missed same held =>
      cases missed.symm.trans held
      exact same
  | answered held reflects => cases missed.symm.trans held
  | raised held => cases missed.symm.trans held

theorem Reading.preserved {writer : Nat} {write : Write} (consistent : Consistent start state)
    (written : state.calls writer = some (.returned place write))
    (reading : Reading start state place reader request) (taken : step state event = some next) :
    Reading start next place reader request := by
  rcases exists_commits taken with ⟨more, commits⟩
  rcases reading.status with ⟨status, known, reads⟩
  cases effect_of_step taken with
  | commit free done =>
      exact reading.other (calls_setCall_other (different_calls free known (by simp))) commits
  | invalidate committed =>
      have different := different_calls committed known (fun same => reads _ _ (Option.some.inj same))
      exact reading.other (calls_setCall_other different) commits
  | ask free => exact reading.other (calls_setCall_other (different_calls free known (by simp))) commits
  | @lockedSection call asked again now cache waiting same =>
      by_cases own : reader = call
      · cases own
        cases reading.asked waiting
        have since := consistent.since_refreshed written (request.forced again) now
        rw [← same] at since
        have now_held := @calls_setCall_self { state with cache := some cache } reader
          (outcome cache.2 again request)
        rcases outcome_cases cache.2 again request with answered | ⟨connectionId, isGet, missed⟩
        · rw [answered] at now_held ⊢
          exact Reading.answered now_held ⟨cache.2, since, rfl⟩
        · rw [missed] at now_held ⊢
          exact Reading.missed isGet now_held
      · exact reading.other (calls_setCall_other own) commits
  | @retry call connectionId now missed =>
      by_cases own : reader = call
      · cases own
        cases reading.asked_of_missed missed
        exact Reading.waiting (calls_setCall_self _ _)
      · exact reading.other (calls_setCall_other own) commits
  | @raise call asked again now waiting =>
      by_cases own : reader = call
      · cases own
        exact Reading.raised (calls_setCall_self _ _)
      · exact reading.other (calls_setCall_other own) commits

/-- A write has returned, and a call that began since then reads.  This is kept by
every further step, which is the induction of the main result. -/
structure AfterWrite (start : Store) (place : Nat) (write : Write) (writer reader : Nat) (request : Request)
    (state : State) : Prop where
  consistent : Consistent start state
  written : state.calls writer = some (.returned place write)
  reading : Reading start state place reader request

theorem AfterWrite.preserved {write : Write} {writer : Nat}
    (after : AfterWrite start place write writer reader request state)
    (taken : step state event = some next) : AfterWrite start place write writer reader request next where
  consistent := after.consistent.preserved taken
  written := returned_preserved after.written taken
  reading := after.reading.preserved after.consistent after.written taken

/-- A call that begins after a write has returned answers from what that write and
later ones left behind.  The cache is dropped after the commit and before the
return, so no list from before the write outlives it. -/
theorem read_your_writes {first rest : List Event} {earlier last : State} {writer reader place : Nat}
    {write : Write} {request : Request} {now : Int} {answer : Answer}
    (before : run step (State.fresh start) first = some earlier)
    (written : earlier.calls writer = some (.returned place write))
    (after : run step earlier (.ask reader request now :: rest) = some last)
    (answered : last.calls reader = some (.answered answer)) :
    last.commits[place]? = some write ∧ Reflects start last.commits place request answer := by
  have consistent : Consistent start earlier :=
    run_invariant_always (fun _ _ _ holds taken => Consistent.preserved holds taken)
      (consistent_fresh start) before
  rcases run_cons_eq_some.mp after with ⟨asked, taken, onward⟩
  have began : AfterWrite start place write writer reader request asked := by
    refine ⟨consistent.preserved taken, returned_preserved written taken, ?_⟩
    cases effect_of_step taken with
    | ask free => exact Reading.waiting (calls_setCall_self _ _)
  have ended : AfterWrite start place write writer reader request last :=
    run_invariant_always (fun _ _ _ holds step => AfterWrite.preserved holds step) began onward
  refine ⟨ended.consistent.placed writer _ ended.written, ?_⟩
  cases ended.reading with
  | waiting held => cases answered.symm.trans held
  | missed same held => cases answered.symm.trans held
  | answered held reflects =>
      cases answered.symm.trans held
      exact reflects
  | raised held => cases answered.symm.trans held

/-- A list of the connections begins, and the only one is deleted. -/
def deletion : List Event :=
  [.ask 0 (.listConnections false false) 0, .commit 1 (.delete 1), .lockedSection 0, .invalidate 1]

/-- `get_connection` does not find it, also in the second pass. -/
theorem read_your_writes_deletion :
    Exists fun earlier : State => run step (State.fresh salesState.store) deletion = some earlier ∧
      Exists fun last : State =>
        run step earlier [.ask 2 (.getConnection 1) 1, .lockedSection 2, .retry 2 2, .lockedSection 2] =
          some last ∧
        last.commits[0]? = some (.delete 1) ∧
        Reflects salesState.store last.commits 0 (.getConnection 1) (.connection none) := by
  refine ⟨_, rfl, _, rfl, ?_⟩
  exact @read_your_writes salesState.store deletion [.lockedSection 2, .retry 2 2, .lockedSection 2]
    _ _ 1 2 0 (.delete 1) (.getConnection 1) 1 (.connection none) rfl rfl rfl rfl

end ConnectionCache
end WarehouseSync

import WarehouseSync.Library.EditLogs
import WarehouseSync.Library.Memo
import WarehouseSync.Library.Transition
import WarehouseSync.Orchestration.SavedSelection

namespace WarehouseSync
namespace TableLookup

open ConfigStore Discovery EditLogs SavedSelection Transition

/-!
# Looking a table up (`orchestration/tables.py`)

`get_table` searches the objects that are kept for the connection, then a new
discovery, and at last discovers the one object by its name.  A discovery is kept
for five minutes under the time from before it was made.  It lists the objects
with one statement and reads the columns of each with another, and every statement
sees the source as it is then.  The source changes, and other lookups are made,
between any two steps.
-/

/-- A row of the listing: a schema, a name and a kind. -/
abbrev Entry :=
  String × String × Kind

def entryOf (object : Discovered) : Entry :=
  (object.schema, object.name, object.kind)

/-- The rows that `discover` goes on with, after its first statement.  The filters
are applied to the names, so no column is read of an object that they leave out. -/
def listed (source : Source) (cfg : Connection) (onlyFqns : Option (List String)) : List Entry :=
  (listObjectsRaw source (syncSchemaBlacklistSet cfg)).filter (fun row => keeps cfg onlyFqns row.1 row.2.1 row.2.2)

/-- The object of a row: the names and the kind are those of the listing, and the
columns those that the source has for these names now.  There are none when the
object is gone, and those of another object when that has taken the names. -/
def introspected (source : Source) (row : Entry) : Discovered :=
  { schema := row.1, name := row.2.1, columns := introspectColumns source row.1 row.2.1, kind := row.2.2 }

/-- When the source does not change, the statements make up a discovery. -/
theorem discover_eq_map (source : Source) (cfg : Connection) (onlyFqns : Option (List String)) :
    discover source cfg onlyFqns = (listed source cfg onlyFqns).map (introspected source) := rfl

/-- A listed row is that of a visible object that passes. -/
theorem mem_listed {source : Source} {cfg : Connection} {onlyFqns : Option (List String)} {row : Entry} :
    row ∈ listed source cfg onlyFqns ↔ Exists fun object : Discovered => object ∈ source.objects ∧
      Visible cfg object ∧ keeps cfg onlyFqns object.schema object.name object.kind = true ∧
        entryOf object = row := by
  have discovered (object : Discovered) : object ∈ (listed source cfg onlyFqns).map (introspected source) ↔
      object ∈ source.objects ∧ Visible cfg object ∧
        keeps cfg onlyFqns object.schema object.name object.kind = true := by
    rw [← discover_eq_map, discover_eq, List.mem_filter, Bool.and_eq_true, decide_eq_true_iff]
  constructor
  · intro member
    have kept := (discovered (introspected source row)).mp (List.mem_map.mpr ⟨row, member, rfl⟩)
    exact ⟨introspected source row, kept.1, kept.2.1, kept.2.2, rfl⟩
  · rintro ⟨object, present, visible, passes, rfl⟩
    rcases List.mem_map.mp ((discovered object).mpr ⟨present, visible, passes⟩) with ⟨row, member, rfl⟩
    exact member

/-- What a lookup is asked for, and when.  The time is kept to say how old an answer
can be, and is not looked at by the code. -/
structure Request where
  conn : Connection
  fqn : String
  started : Nat
deriving DecidableEq, Repr

/-- What a discovery is made for.  A call of `get_tables`, forced or not, has read the
clock and the selection before its first statement; the last discovery of a lookup
is for the one name, and nothing of it is kept. -/
inductive Stage where
  | tables (force : Bool) (now : Nat) (selected : Option (List String))
  | target
deriving DecidableEq, Repr

/-- The time from which what a discovery sees is counted: for `get_tables` it is the
time that its result is kept under. -/
def Stage.since (request : Request) : Stage -> Nat
  | .tables _ now _ => now
  | .target => request.started

def Stage.listed (source : Source) (request : Request) : Stage -> List Entry
  | .tables _ _ selected => TableLookup.listed source (discoveryConfig request.conn selected) selected
  | .target => TableLookup.listed source request.conn (some [request.fqn])

/-- How far a lookup is.  While it introspects it has rows that are still to be read
and the objects it has read.  A lookup without an answer has looked at the source,
or its last discovery has raised. -/
inductive Lookup where
  | listing (request : Request) (stage : Stage)
  | introspecting (request : Request) (stage : Stage) (rows : List Entry) (objects : List Discovered)
  | found (request : Request) (config : Configured)
  | absent (request : Request) (looked : Bool)
  | raised (request : Request)
deriving DecidableEq, Repr

/-- The source behind each connection, by the log of its changes: what a lookup has
seen is told by a place in that log.  Times are in milliseconds. -/
structure State where
  now : Nat
  initial : Int -> Option Source
  changes : List (Edit Nat Int Source)
  selections : Int -> Option (List String)
  cache : Cache
  lookups : Nat -> Option Lookup

def State.fresh (initial : Int -> Option Source) (selections : Int -> Option (List String)) (now : Nat) : State :=
  { now := now, initial := initial, changes := [], selections := selections, cache := fun _ => none
    lookups := fun _ => none }

def State.source (state : State) (connectionId : Int) : Option Source :=
  after state.initial state.changes connectionId

def State.setLookup (state : State) (lookup : Nat) (status : Lookup) : State :=
  { state with lookups := Function.update state.lookups lookup (some status) }

@[simp]
theorem State.lookups_setLookup (state : State) (lookup : Nat) (status : Lookup) :
    (state.setLookup lookup status).lookups lookup = some status := Function.update_self _ _ _

@[simp]
theorem State.source_setLookup (state : State) (lookup : Nat) (status : Lookup) (connectionId : Int) :
    (state.setLookup lookup status).source connectionId = state.source connectionId := rfl

@[simp]
theorem State.setLookup_setLookup (state : State) (lookup : Nat) (first second : Lookup) :
    (state.setLookup lookup first).setLookup lookup second = state.setLookup lookup second := by
  unfold State.setLookup
  rw [Function.update_idem]

def State.keep (state : State) (connectionId : Int) (now : Nat) (configs : List Configured) : State :=
  { state with cache := Function.update state.cache connectionId (some (now, configs)) }

def Configured.fqn (config : Configured) : String :=
  config.toTableConfig.fqn

def search (fqn : String) (configs : List Configured) : Option Configured :=
  configs.find? (fun config => decide (Configured.fqn config = fqn))

/-- What comes after a call of `get_tables`: its answer, or the next attempt.  A
list from the cache is followed by a forced one, and that by the discovery of the
one name. -/
def State.settle (state : State) (request : Request) (force : Bool) (configs : List Configured) : Lookup :=
  match search request.fqn configs with
  | some config => .found request config
  | none =>
      if force = true then .listing request .target
      else .listing request (.tables true state.now (state.selections request.conn.id))

/-- What the last discovery has found.  It is made for the one name, but the filter
is on the text, so the object is looked for again. -/
def target (request : Request) (objects : List Discovered) : Lookup :=
  match objects.find? (fun object => decide (fqnOf object.schema object.name = request.fqn)) with
  | some object => .found request (configFromObject object)
  | none => .absent request true

/-- The end of a discovery.  What `get_tables` has made is kept under the time at
which the call began, while the last discovery is not kept at all. -/
def State.finish (state : State) (lookup : Nat) (request : Request) (objects : List Discovered) : Stage -> State
  | .tables force now _ =>
      (state.keep request.conn.id now (objects.map configFromObject)).setLookup lookup
        (state.settle request force (objects.map configFromObject))
  | .target => state.setLookup lookup (target request objects)

/-- One step of the surroundings or of a lookup.  Each statement is an event of its
own, because the source may change between any two of them. -/
inductive Event where
  | tick (later : Nat)
  | change (connectionId : Int) (source : Source)
  | select (connectionId : Int) (selected : Option (List String))
  | begin (lookup : Nat) (conn : Connection) (fqn : String)
  | list (lookup : Nat)
  | introspect (lookup : Nat)
  | fail (lookup : Nat)
  | store (lookup : Nat)

/-- A statement may be executed whenever it is the next one of its lookup, and may fail
as well: then a call of `get_tables` raises, while the last discovery is caught. -/
def step (state : State) : Event -> Option State
  | .tick later => if state.now ≤ later then some { state with now := later } else none
  | .change connectionId source =>
      some { state with changes := state.changes ++ [⟨state.now, connectionId, source⟩] }
  | .select connectionId selected =>
      some { state with selections := Function.update state.selections connectionId selected }
  | .begin lookup conn fqn =>
      match state.lookups lookup with
      | some _ => none
      | none =>
          let request : Request := { conn := conn, fqn := fqn, started := state.now }
          match state.cache.valid conn.id state.now with
          | some configs => some (state.setLookup lookup (state.settle request false configs))
          | none => some (state.setLookup lookup
              (.listing request (.tables false state.now (state.selections conn.id))))
  | .list lookup =>
      match state.lookups lookup with
      | some (.listing request stage) => (state.source request.conn.id).map (fun source =>
          state.setLookup lookup (.introspecting request stage (stage.listed source request) []))
      | _ => none
  | .introspect lookup =>
      match state.lookups lookup with
      | some (.introspecting request stage (row :: rows) objects) => (state.source request.conn.id).map (fun source =>
          state.setLookup lookup (.introspecting request stage rows (objects ++ [introspected source row])))
      | _ => none
  | .fail lookup =>
      match state.lookups lookup with
      | some (.listing request (.tables _ _ _)) => some (state.setLookup lookup (.raised request))
      | some (.introspecting request (.tables _ _ _) _ _) => some (state.setLookup lookup (.raised request))
      | some (.listing request .target) => some (state.setLookup lookup (.absent request false))
      | some (.introspecting request .target _ _) => some (state.setLookup lookup (.absent request false))
      | _ => none
  | .store lookup =>
      match state.lookups lookup with
      | some (.introspecting request stage [] objects) => some (state.finish lookup request objects stage)
      | _ => none

/-! ## What is known of a lookup -/

/-- The source has an object with these names and of this kind. -/
def Lists (row : Entry) (source : Option Source) : Prop :=
  Exists fun current : Source => source = some current ∧ Exists fun object : Discovered =>
    object ∈ current.objects ∧ entryOf object = row

/-- The columns of the object are those that the source has for its names.  There
are none when the source has no object of these names. -/
def Shows (object : Discovered) (source : Option Source) : Prop :=
  Exists fun current : Source => source = some current ∧
    object.columns = introspectColumns current object.schema object.name

/-- The connection sees no object of that name in the source.  Objects of other
connections and of hidden schemas do not count. -/
def Lacks (request : Request) (source : Option Source) : Prop :=
  Exists fun current : Source => source = some current ∧ forall object, object ∈ current.objects ->
    Visible request.conn object -> fqnOf object.schema object.name ≠ request.fqn

/-- The object was listed and its columns were read at the time or later.  The two
reads need not have met the same source. -/
def State.Seen (state : State) (connectionId : Int) (since : Nat) (object : Discovered) : Prop :=
  since ≤ state.now ∧ ReadSince state.initial state.changes since connectionId (Lists (entryOf object)) ∧
    ReadSince state.initial state.changes since connectionId (Shows object)

/-- The configuration is made from an object that was so seen. -/
def State.Made (state : State) (connectionId : Int) (since : Nat) (config : Configured) : Prop :=
  Exists fun object : Discovered => config = configFromObject object ∧ state.Seen connectionId since object

/-- What is known in the middle of a discovery.  The last two fields are about the
discovery of one name: it lists nothing else, so that when it has listed nothing
the name was not there. -/
structure State.Introspects (state : State) (request : Request) (stage : Stage) (rows : List Entry)
    (objects : List Discovered) : Prop where
  begun : request.started ≤ stage.since request
  past : stage.since request ≤ state.now
  pending : forall row, row ∈ rows ->
    ReadSince state.initial state.changes (stage.since request) request.conn.id (Lists row)
  seen : forall object, object ∈ objects -> state.Seen request.conn.id (stage.since request) object
  named : stage = .target -> forall row, row ∈ rows ++ objects.map entryOf -> fqnOf row.1 row.2.1 = request.fqn
  lacking : stage = .target -> rows = [] -> objects = [] ->
    ReadSince state.initial state.changes request.started request.conn.id (Lacks request)

/-- What is known of a lookup by how far it has come.  An answer from the cache is
as old as the list it comes from, and no older than the time for which lists are
valid. -/
def State.Knows (state : State) : Lookup -> Prop
  | .listing request stage => request.started ≤ stage.since request ∧ stage.since request ≤ state.now
  | .introspecting request stage rows objects => state.Introspects request stage rows objects
  | .found request config => Configured.fqn config = request.fqn ∧ Exists fun stamp : Nat =>
      request.started < stamp + discoveryTtl ∧ state.Made request.conn.id stamp config
  | .absent request looked => request.started ≤ state.now ∧ (looked = true ->
      ReadSince state.initial state.changes request.started request.conn.id (Lacks request))
  | .raised _ => True

/-- The invariant of the lookups.  A kept configuration was made from what the source
had at the time it is kept under or later, since that time was read first. -/
structure Consistent (state : State) : Prop where
  ordered : InOrder state.changes
  made : forall edit, edit ∈ state.changes -> edit.time ≤ state.now
  cache : forall connectionId stamp configs, state.cache connectionId = some (stamp, configs) ->
    forall config, config ∈ configs -> state.Made connectionId stamp config
  lookups : forall lookup status, state.lookups lookup = some status -> state.Knows status

variable {state next : State} {event : Event} {request : Request}

theorem consistent_fresh (initial : Int -> Option Source) (selections : Int -> Option (List String)) (now : Nat) :
    Consistent (State.fresh initial selections now) where
  ordered := List.Pairwise.nil
  made := fun _ none => by cases none
  cache := fun _ _ _ none => by cases none
  lookups := fun _ _ none => by cases none

theorem knows_settle {stamp : Nat} {configs : List Configured} (begun : request.started ≤ state.now)
    (young : request.started < stamp + discoveryTtl)
    (made : forall config, config ∈ configs -> state.Made request.conn.id stamp config) (force : Bool) :
    state.Knows (state.settle request force configs) := by
  unfold State.settle search
  split
  · rename_i config found
    have matched := List.find?_some found
    have named := of_decide_eq_true matched
    exact ⟨named, stamp, young, made config (List.mem_of_find?_eq_some found)⟩
  · split
    · exact ⟨le_refl _, begun⟩
    · exact ⟨begun, le_refl _⟩

theorem knows_target {objects : List Discovered} (known : state.Introspects request .target [] objects) :
    state.Knows (target request objects) := by
  unfold target
  split
  · rename_i object found
    have matched := List.find?_some found
    have named := of_decide_eq_true matched
    exact ⟨named, request.started, Nat.lt_add_of_pos_right (by decide), object, rfl,
      known.seen object (List.mem_of_find?_eq_some found)⟩
  · rename_i none
    have nothing : objects = [] := by
      refine List.eq_nil_iff_forall_not_mem.mpr (fun object member => ?_)
      have named := known.named rfl (entryOf object) (List.mem_map.mpr ⟨object, member, rfl⟩)
      exact List.find?_eq_none.mp none object member (decide_eq_true named)
    exact ⟨known.past, fun _ => known.lacking rfl rfl nothing⟩

/-- The rows that are listed now. -/
theorem introspects_listed {source : Source} {stage : Stage} (current : state.source request.conn.id = some source)
    (begun : request.started ≤ stage.since request) (past : stage.since request ≤ state.now) :
    state.Introspects request stage (stage.listed source request) [] where
  begun := begun
  past := past
  pending := by
    intro row member
    have present : Exists fun object : Discovered => object ∈ source.objects ∧ entryOf object = row := by
      cases stage with
      | tables force now selected =>
          rcases mem_listed.mp member with ⟨object, present, _, _, same⟩
          exact ⟨object, present, same⟩
      | target =>
          rcases mem_listed.mp member with ⟨object, present, _, _, same⟩
          exact ⟨object, present, same⟩
    exact readSince_now ⟨source, current, present⟩
  seen := fun object none => by cases none
  named := by
    rintro rfl row member
    rw [List.map_nil, List.append_nil] at member
    rcases mem_listed.mp member with ⟨object, _, _, passes, rfl⟩
    exact List.mem_singleton.mp (List.contains_iff_mem.mp passes)
  lacking := by
    rintro rfl nothing _
    refine readSince_now ⟨source, current, fun object present visible same => ?_⟩
    have row : entryOf object ∈ Stage.listed source request .target := by
      refine mem_listed.mpr ⟨object, present, visible, ?_, rfl⟩
      simp [keeps, same]
    rw [nothing] at row
    cases row

/-- The columns of the next row are read now. -/
theorem State.Introspects.concat {source : Source} {stage : Stage} {row : Entry} {rows : List Entry}
    {objects : List Discovered} (known : state.Introspects request stage (row :: rows) objects)
    (current : state.source request.conn.id = some source) :
    state.Introspects request stage rows (objects ++ [introspected source row]) where
  begun := known.begun
  past := known.past
  pending := fun other member => known.pending other (List.mem_cons_of_mem row member)
  seen := by
    intro object member
    rcases List.mem_append.mp member with before | last
    · exact known.seen object before
    · rw [List.mem_singleton.mp last]
      exact ⟨known.past, known.pending row List.mem_cons_self, readSince_now ⟨source, current, rfl⟩⟩
  named := by
    intro isTarget other member
    refine known.named isTarget other ?_
    rw [List.map_append, List.mem_append, List.mem_append, List.map_singleton, List.mem_singleton] at member
    rw [List.cons_append, List.mem_cons, List.mem_append]
    rcases member with later | before | rfl
    · exact Or.inr (Or.inl later)
    · exact Or.inr (Or.inr before)
    · exact Or.inl rfl
  lacking := by
    intro _ _ nothing
    exact absurd nothing (List.append_ne_nil_of_right_ne_nil _ (List.cons_ne_nil _ _))

/-- Everything a step can do to the state.  The steps of a lookup that keep nothing
are one case here, with what is known of the lookup afterwards. -/
inductive Effect (state : State) : Event -> State -> Prop
  | tick {later : Nat} (forward : state.now ≤ later) : Effect state (.tick later) { state with now := later }
  | change {connectionId : Int} {source : Source} : Effect state (.change connectionId source)
      { state with changes := state.changes ++ [⟨state.now, connectionId, source⟩] }
  | select {connectionId : Int} {selected : Option (List String)} : Effect state (.select connectionId selected)
      { state with selections := Function.update state.selections connectionId selected }
  | advance {event : Event} {lookup : Nat} {status : Lookup} (known : state.Knows status) :
      Effect state event (state.setLookup lookup status)
  | store {event : Event} {lookup now : Nat} {connectionId : Int} {configs : List Configured} {status : Lookup}
      (made : forall config, config ∈ configs -> state.Made connectionId now config) (known : state.Knows status) :
      Effect state event ((state.keep connectionId now configs).setLookup lookup status)

theorem effect_of_step (consistent : Consistent state) (taken : step state event = some next) :
    Effect state event next := by
  cases event with
  | tick later =>
      simp only [step] at taken
      split at taken
      · rename_i forward
        cases taken
        exact Effect.tick forward
      · cases taken
  | change connectionId source =>
      cases taken
      exact Effect.change
  | select connectionId selected =>
      cases taken
      exact Effect.select
  | begin lookup conn fqn =>
      simp only [step] at taken
      split at taken
      · cases taken
      · split at taken
        · rename_i configs valid
          cases taken
          rcases Option.bind_eq_some_iff.mp valid with ⟨entry, kept, fresh⟩
          split at fresh
          · rename_i young
            cases fresh
            refine Effect.advance (knows_settle (le_refl _) ?_ (consistent.cache conn.id _ _ kept) false)
            have positive : 0 < discoveryTtl := by decide
            change state.now < entry.1 + discoveryTtl
            omega
          · cases fresh
        · cases taken
          exact Effect.advance ⟨le_refl _, le_refl _⟩
  | list lookup =>
      simp only [step] at taken
      split at taken
      · rename_i request stage listing
        rcases Option.map_eq_some_iff.mp taken with ⟨source, current, rfl⟩
        have known := consistent.lookups lookup _ listing
        exact Effect.advance (introspects_listed current known.1 known.2)
      · cases taken
  | introspect lookup =>
      simp only [step] at taken
      split at taken
      · rename_i request stage row rows objects introspecting
        rcases Option.map_eq_some_iff.mp taken with ⟨source, current, rfl⟩
        have known := consistent.lookups lookup _ introspecting
        exact Effect.advance (State.Introspects.concat known current)
      · cases taken
  | fail lookup =>
      simp only [step] at taken
      split at taken
      · cases taken
        exact Effect.advance trivial
      · cases taken
        exact Effect.advance trivial
      · rename_i request listing
        cases taken
        exact Effect.advance ⟨(consistent.lookups lookup _ listing).2, fun impossible => by cases impossible⟩
      · rename_i request rows objects introspecting
        cases taken
        exact Effect.advance ⟨(consistent.lookups lookup _ introspecting).past, fun impossible => by cases impossible⟩
      · cases taken
  | store lookup =>
      simp only [step] at taken
      split at taken
      · rename_i request stage objects introspecting
        cases taken
        have known := consistent.lookups lookup _ introspecting
        cases stage with
        | tables force now selected =>
            have made : forall config, config ∈ objects.map configFromObject ->
                state.Made request.conn.id now config := by
              intro config member
              rcases List.mem_map.mp member with ⟨object, read, rfl⟩
              exact ⟨object, rfl, known.seen object read⟩
            refine Effect.store made (knows_settle (le_trans known.begun known.past) ?_ made force)
            exact Nat.lt_of_le_of_lt known.begun (Nat.lt_add_of_pos_right (by decide))
        | target => exact Effect.advance (knows_target known)
      · cases taken

/-- What was read stays read: later changes of the source come after it in the log. -/
theorem readSince_preserved {connectionId : Int} {since : Nat} {test : Option Source -> Prop}
    (consistent : Consistent state) (past : since ≤ state.now)
    (read : ReadSince state.initial state.changes since connectionId test) (taken : step state event = some next) :
    ReadSince next.initial next.changes since connectionId test := by
  cases effect_of_step consistent taken with
  | change => exact read.concat past
  | _ => exact read

theorem now_preserved (consistent : Consistent state) (taken : step state event = some next) :
    state.now ≤ next.now := by
  cases effect_of_step consistent taken with
  | tick forward => exact forward
  | _ => exact le_refl _

theorem State.Seen.preserved {connectionId : Int} {since : Nat} {object : Discovered} (consistent : Consistent state)
    (seen : state.Seen connectionId since object) (taken : step state event = some next) :
    next.Seen connectionId since object :=
  ⟨le_trans seen.1 (now_preserved consistent taken), readSince_preserved consistent seen.1 seen.2.1 taken,
    readSince_preserved consistent seen.1 seen.2.2 taken⟩

theorem State.Made.preserved {connectionId : Int} {since : Nat} {config : Configured} (consistent : Consistent state)
    (made : state.Made connectionId since config) (taken : step state event = some next) :
    next.Made connectionId since config := by
  rcases made with ⟨object, same, seen⟩
  exact ⟨object, same, seen.preserved consistent taken⟩

theorem State.Introspects.preserved {stage : Stage} {rows : List Entry} {objects : List Discovered}
    (consistent : Consistent state) (known : state.Introspects request stage rows objects)
    (taken : step state event = some next) : next.Introspects request stage rows objects where
  begun := known.begun
  past := le_trans known.past (now_preserved consistent taken)
  pending := fun row member => readSince_preserved consistent known.past (known.pending row member) taken
  seen := fun object member => (known.seen object member).preserved consistent taken
  named := known.named
  lacking := by
    intro isTarget noRows noObjects
    have past := le_trans known.begun known.past
    exact readSince_preserved consistent past (known.lacking isTarget noRows noObjects) taken

theorem State.Knows.preserved {status : Lookup} (consistent : Consistent state) (known : state.Knows status)
    (taken : step state event = some next) : next.Knows status := by
  cases status with
  | listing request stage => exact ⟨known.1, le_trans known.2 (now_preserved consistent taken)⟩
  | introspecting request stage rows objects => exact State.Introspects.preserved consistent known taken
  | found request config =>
      rcases known with ⟨named, stamp, young, made⟩
      exact ⟨named, stamp, young, made.preserved consistent taken⟩
  | absent request looked =>
      refine ⟨le_trans known.1 (now_preserved consistent taken), fun saw => ?_⟩
      exact readSince_preserved consistent known.1 (known.2 saw) taken
  | raised request => trivial

theorem Consistent.preserved (consistent : Consistent state) (taken : step state event = some next) :
    Consistent next := by
  have cache (connectionId : Int) (stamp : Nat) (configs : List Configured)
      (kept : state.cache connectionId = some (stamp, configs)) (config : Configured) (member : config ∈ configs) :
      next.Made connectionId stamp config :=
    (consistent.cache connectionId stamp configs kept config member).preserved consistent taken
  have lookups (lookup : Nat) (status : Lookup) (held : state.lookups lookup = some status) : next.Knows status :=
    (consistent.lookups lookup status held).preserved consistent taken
  cases effect_of_step consistent taken with
  | tick forward =>
      exact ⟨consistent.ordered, fun edit member => le_trans (consistent.made edit member) forward, cache, lookups⟩
  | change =>
      refine ⟨inOrder_concat consistent.ordered consistent.made, ?_, cache, lookups⟩
      intro edit member
      rcases List.mem_append.mp member with before | last
      · exact consistent.made edit before
      · rw [List.mem_singleton.mp last]
  | select => exact ⟨consistent.ordered, consistent.made, cache, lookups⟩
  | advance known =>
      refine ⟨consistent.ordered, consistent.made, cache, fun lookup status held => ?_⟩
      rcases Memo.update_eq_some held with before | ⟨_, rfl⟩
      · exact lookups lookup status before
      · exact known.preserved consistent taken
  | store made known =>
      refine ⟨consistent.ordered, consistent.made, fun connectionId stamp configs kept => ?_,
        fun lookup status held => ?_⟩
      · rcases Memo.update_eq_some kept with before | ⟨rfl, same⟩
        · exact cache connectionId stamp configs before
        · cases same
          exact fun config member => (made config member).preserved consistent taken
      · rcases Memo.update_eq_some held with before | ⟨_, rfl⟩
        · exact lookups lookup status before
        · exact known.preserved consistent taken

theorem consistent_of_run {initial : Int -> Option Source} {selections : Int -> Option (List String)} {now : Nat}
    {events : List Event} (reached : run step (State.fresh initial selections now) events = some state) :
    Consistent state :=
  run_invariant_always (fun _ _ _ holds taken => Consistent.preserved holds taken)
    (consistent_fresh initial selections now) reached

/-! ## What a lookup returns -/

/-- However lookups and changes of the source interleave, what a lookup returns has the
requested name and is made from an object whose names and kind the source had at an
instant after the five minutes before the lookup, and whose columns it had under
these names at another such instant.  The two are one when the source does not
change in between. -/
theorem get_table_recent (initial : Int -> Option Source) (selections : Int -> Option (List String)) (now : Nat)
    (events : List Event) (state : State) (lookup : Nat) (request : Request) (config : Configured)
    (reached : run step (State.fresh initial selections now) events = some state)
    (found : state.lookups lookup = some (.found request config)) :
    Configured.fqn config = request.fqn ∧ Exists fun object : Discovered => config = configFromObject object ∧
      (Exists fun instant : Nat => request.started < instant + discoveryTtl ∧ instant ≤ state.now ∧
        HeldAt state.initial state.changes instant request.conn.id (Lists (entryOf object))) ∧
      (Exists fun instant : Nat => request.started < instant + discoveryTtl ∧ instant ≤ state.now ∧
        HeldAt state.initial state.changes instant request.conn.id (Shows object)) := by
  have consistent := consistent_of_run reached
  rcases consistent.lookups lookup _ found with ⟨named, stamp, young, object, same, past, listed, shown⟩
  refine ⟨named, object, same, ?_, ?_⟩
  · rcases listed.heldAt consistent.ordered consistent.made past with ⟨instant, later, notAfter, held⟩
    exact ⟨instant, lt_of_lt_of_le young (Nat.add_le_add_right later _), notAfter, held⟩
  · rcases shown.heldAt consistent.ordered consistent.made past with ⟨instant, later, notAfter, held⟩
    exact ⟨instant, lt_of_lt_of_le young (Nat.add_le_add_right later _), notAfter, held⟩

def emptySource : Source :=
  { relations := [], unique := List.nodup_nil }

/-- A table is looked up, and dropped before its columns are read; three minutes later
it is looked up again. -/
def droppedTable : List Event :=
  [.begin 1 filtered "public.orders", .list 1, .change 1 emptySource, .introspect 1, .store 1, .tick 180000,
    .begin 2 filtered "public.orders"]

theorem dropped_table_found : Exists fun state : State => Exists fun config : Configured =>
    run step (State.fresh (fun _ => some salesSource) (fun _ => some ["public.orders"]) 0) droppedTable = some state ∧
      state.lookups 2 = some (.found ⟨filtered, "public.orders", 180000⟩ config) ∧ config.watermarkColumn = none ∧
      Exists fun object : Discovered => Exists fun instant : Nat => 180000 < instant + discoveryTtl ∧
        HeldAt state.initial state.changes instant 1 (Lists (entryOf object)) := by
  have finished : (run step (State.fresh (fun _ => some salesSource) (fun _ => some ["public.orders"]) 0)
      droppedTable).isSome = true := rfl
  have reached := (Option.some_get finished).symm
  have recent := get_table_recent _ _ 0 droppedTable _ 2 ⟨filtered, "public.orders", 180000⟩ _ reached rfl
  rcases recent with ⟨_, object, _, ⟨instant, young, _, held⟩, _⟩
  exact ⟨_, _, reached, rfl, rfl, object, instant, young, held⟩

/-- A lookup that returns nothing has seen the source without the object since it
began, unless its last discovery has raised.  For this only the listing matters: an
object that is not listed is not introspected. -/
theorem get_table_complete (initial : Int -> Option Source) (selections : Int -> Option (List String)) (now : Nat)
    (events : List Event) (state : State) (lookup : Nat) (request : Request)
    (reached : run step (State.fresh initial selections now) events = some state)
    (absent : state.lookups lookup = some (.absent request true)) :
    Exists fun instant : Nat => request.started ≤ instant ∧ instant ≤ state.now ∧
      HeldAt state.initial state.changes instant request.conn.id (Lacks request) := by
  have consistent := consistent_of_run reached
  have known := consistent.lookups lookup _ absent
  exact (known.2 rfl).heldAt consistent.ordered consistent.made known.1

/-- A lookup of a table that is not there discovers three times. -/
def unknownTable : List Event :=
  [.begin 1 filtered "public.orders", .list 1, .store 1, .list 1, .store 1, .list 1, .store 1]

theorem unknown_table_absent : Exists fun state : State =>
    run step (State.fresh (fun _ => some emptySource) (fun _ => none) 0) unknownTable = some state ∧
      Exists fun instant : Nat => instant ≤ state.now ∧
        HeldAt state.initial state.changes instant 1 (Lacks ⟨filtered, "public.orders", 0⟩) := by
  have finished : (run step (State.fresh (fun _ => some emptySource) (fun _ => none) 0)
      unknownTable).isSome = true := rfl
  have reached := (Option.some_get finished).symm
  have seen := get_table_complete _ _ 0 unknownTable _ 1 ⟨filtered, "public.orders", 0⟩ reached rfl
  rcases seen with ⟨instant, _, notAfter, held⟩
  exact ⟨_, reached, instant, notAfter, held⟩

/-- The statements that read the columns, one after the other. -/
theorem run_introspect {source : Source} {stage : Stage} (rows : List Entry) (objects : List Discovered)
    {lookup : Nat} (current : state.source request.conn.id = some source) :
    run step (state.setLookup lookup (.introspecting request stage rows objects))
        (List.replicate rows.length (.introspect lookup)) =
      some (state.setLookup lookup (.introspecting request stage []
        (objects ++ rows.map (introspected source)))) := by
  induction rows generalizing objects with
  | nil =>
      rw [List.map_nil, List.append_nil]
      rfl
  | cons row rest ih =>
      have taken : step (state.setLookup lookup (.introspecting request stage (row :: rest) objects))
          (.introspect lookup) = some (state.setLookup lookup
            (.introspecting request stage rest (objects ++ [introspected source row]))) := by
        simp only [step, State.lookups_setLookup, State.source_setLookup, current, Option.map_some,
          State.setLookup_setLookup]
      have later := ih (objects ++ [introspected source row])
      rw [List.append_assoc, List.singleton_append] at later
      exact run_cons_eq_some.mpr ⟨_, taken, later⟩

/-- A lookup that nothing interrupts is a call of `get_tables`. -/
theorem lookup_alone {store : Store} {source : Source} {conn : Connection} {lookup : Nat} (fqn : String)
    (current : state.source conn.id = some source) (selected : state.selections conn.id = store.enabledFqns conn.id)
    (free : state.lookups lookup = none) (expired : state.cache.valid conn.id state.now = none) :
    Exists fun next : State => Exists fun reads : Nat =>
      run step state ([.begin lookup conn fqn, .list lookup] ++ List.replicate reads (.introspect lookup) ++
        [.store lookup]) = some next ∧
      next.cache = (getTables store source state.cache state.now conn false).2 ∧
      next.lookups lookup = some (state.settle ⟨conn, fqn, state.now⟩ false
        (getTables store source state.cache state.now conn false).1) := by
  let request : Request := ⟨conn, fqn, state.now⟩
  let stage : Stage := .tables false state.now (state.selections conn.id)
  let rows := stage.listed source request
  let configs := (rows.map (introspected source)).map configFromObject
  have called : getTables store source state.cache state.now conn false =
      (configs, Function.update state.cache conn.id (some (state.now, configs))) := by
    unfold getTables
    rw [if_neg Bool.false_ne_true, expired, ← selected]
    rfl
  rw [called]
  have begun : step state (.begin lookup conn fqn) = some (state.setLookup lookup (.listing request stage)) := by
    simp only [step, free, expired]
    rfl
  have shown : step (state.setLookup lookup (.listing request stage)) (.list lookup) =
      some (state.setLookup lookup (.introspecting request stage rows [])) := by
    have same : state.source request.conn.id = some source := current
    simp only [step, State.lookups_setLookup, State.source_setLookup, same, Option.map_some,
      State.setLookup_setLookup]
    rfl
  have stored : step (state.setLookup lookup (.introspecting request stage [] (rows.map (introspected source))))
      (.store lookup) = some ((state.setLookup lookup (.introspecting request stage []
        (rows.map (introspected source)))).finish lookup request (rows.map (introspected source)) stage) := by
    simp only [step, State.lookups_setLookup]
  have read := @run_introspect state request source stage rows [] lookup current
  rw [List.nil_append] at read
  refine ⟨_, rows.length, run_append_eq_some.mpr ⟨_, run_append_eq_some.mpr ⟨_, ?_, read⟩,
    run_cons_eq_some.mpr ⟨_, stored, rfl⟩⟩, rfl, ?_⟩
  · exact run_cons_eq_some.mpr ⟨_, begun, run_cons_eq_some.mpr ⟨_, shown, rfl⟩⟩
  · exact Function.update_self _ _ _

end TableLookup
end WarehouseSync

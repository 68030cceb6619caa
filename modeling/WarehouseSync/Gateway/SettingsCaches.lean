import WarehouseSync.Gateway.App
import WarehouseSync.Library.EditLogs
import WarehouseSync.Library.Memo
import WarehouseSync.Library.PythonText
import WarehouseSync.Library.Transition

namespace WarehouseSync
namespace SettingsCaches

open EditLogs Transition

/-!
# The two caches of the settings (`common/settings.py`, `common/config_store.py`)

`get_settings` keeps what it built for thirty seconds.  What it builds from is
`all_settings`, which keeps the rows it read for thirty seconds of its own.  The
outer cache is stamped with a time from before the inner one is asked, so that
it can expire first and be built again from rows that are almost as old.
-/

inductive Caster where
  | int
  | str
  | bool
deriving DecidableEq, Repr

inductive Value where
  | int (number : Int)
  | str (text : String)
  | bool (flag : Bool)
deriving DecidableEq, Repr

/-- `_as_bool`.  A text that is none of the four is false, so a misspelt one is no
error. -/
def asBool (text : String) : Bool :=
  ["1", "true", "yes", "on"].contains (PythonText.lower (String.ofList (PythonText.strip text.toList)))

/-- A cast that raises `ValueError` has no result.  The attribute then keeps the
value of the environment. -/
def Caster.cast : Caster -> String -> Option Value
  | .int, text => (PythonText.readInt text.toList).map Value.int
  | .str, text => some (.str text)
  | .bool, text => some (.bool (asBool text))

/-- `_OVERLAY`; every attribute has the name of its key. -/
def overlay : List (String × Caster) :=
  [("extract_rows_per_chunk", .int), ("extract_row_group_rows", .int), ("parquet_compression", .str),
    ("parquet_compression_level", .int), ("incremental_overlap_seconds", .int),
    ("incremental_safety_gap_seconds", .int), ("iceberg_catalog_name", .str), ("aws_region", .str),
    ("gateway_jwt_audience", .str), ("gateway_jwt_issuer", .str), ("gateway_jwks_url", .str),
    ("gateway_max_bytes_scanned", .int), ("gateway_query_timeout_seconds", .int),
    ("gateway_allowed_schemas", .str), ("gateway_view_refresh_seconds", .int),
    ("gateway_default_row_limit", .int), ("gateway_max_row_limit", .int),
    ("gateway_admin_sql_unrestricted", .bool), ("sync_drop_removed_columns", .bool), ("log_level", .str)]

/-- `EDITABLE_SETTING_KEYS`. -/
theorem keys_overlay : overlay.map Prod.fst = App.editableSettingKeys := rfl

/-- The rows of `pipeline_settings`; the value of a row may be NULL, which counts as
no row. -/
abbrev Rows := String -> Option (Option String)

/-- What the loop in `get_settings` makes of a row, if it sets the attribute. -/
def overlaid (key : String) (row : Option (Option String)) : Option Value :=
  match row with
  | some (some text) => (overlay.lookup key).bind (fun caster => caster.cast text)
  | _ => none

/-- The rows as they were read, when, and after how many of the edits.  The program
keeps the rows only. -/
structure Snapshot where
  rows : Rows
  readAt : Int
  seen : Nat

/-- The attributes that are overlaid, and what is known of the rows they are from. -/
structure Settings where
  values : String -> Option Value
  readAt : Int
  seen : Nat

def build (snapshot : Snapshot) : Settings :=
  { values := fun key => overlaid key (snapshot.rows key), readAt := snapshot.readAt, seen := snapshot.seen }

/-- A call of `get_settings`, with the time it began at where it is not served from
the cache.  It takes the time before it reads, and stamps the cache with it after.
-/
inductive Call where
  | cached
  | building (started : Int)
  | asking (started asked : Int)
  | overlaying (started : Int) (snapshot : Snapshot)
  | returning (started : Int) (settings : Settings)
  | done

/-- The two caches of a process over the stored settings.  Times are in nanoseconds
of the monotonic clock. -/
structure State where
  now : Int
  initial : Rows
  edits : List (Edit Int String (Option String))
  settingsCache : Option (Int × Snapshot)
  cache : Option (Int × Settings)
  calls : Nat -> Option Call

def State.fresh (initial : Rows) (now : Int) : State :=
  { now := now, initial := initial, edits := [], settingsCache := none, cache := none, calls := fun _ => none }

def State.setCall (state : State) (call : Nat) (status : Call) : State :=
  { state with calls := Function.update state.calls call (some status) }

/-- `_TTL` and `_CACHE_TTL_SECONDS`. -/
def ttl : Int := 30000000000

/-- What a SELECT returns now. -/
def State.select (state : State) : Snapshot :=
  { rows := after state.initial state.edits, readAt := state.now, seen := state.edits.length }

/-- The section of `all_settings` that holds the lock; `get_settings` does not force
it.  So the outer cache may be filled from rows that are thirty seconds old. -/
def State.refreshed (state : State) (asked : Int) : Int × Snapshot :=
  Memo.refreshed ttl state.settingsCache false asked state.select

/-- The settings that a call is about to return, and their stamp. -/
def State.given (state : State) (call : Nat) : Option (Int × Settings) :=
  match state.calls call with
  | some .cached => state.cache
  | some (.returning started settings) => some (started, settings)
  | _ => none

inductive Event where
  | tick (later : Int)
  | setSetting (key : String) (value : Option String)
  | clear
  | getSettings (call : Nat)
  | ask (call : Nat)
  | lockedSection (call : Nat)
  | keep (call : Nat)
  | give (call : Nat)
deriving DecidableEq, Repr

/-- Any process may commit an edit; one of this process clears the inner cache
afterwards.  Other calls may come between any two steps of a call. -/
def step (state : State) : Event -> Option State
  | .tick later => if state.now ≤ later then some { state with now := later } else none
  | .setSetting key value => some { state with edits := state.edits ++ [⟨state.now, key, value⟩] }
  | .clear => some { state with settingsCache := none }
  | .getSettings call =>
      match state.calls call with
      | some _ => none
      | none =>
          match state.cache with
          | some (stamp, _) =>
              if state.now - stamp < ttl then some (state.setCall call .cached)
              else some (state.setCall call (.building state.now))
          | none => some (state.setCall call (.building state.now))
  | .ask call =>
      match state.calls call with
      | some (.building started) => some (state.setCall call (.asking started state.now))
      | _ => none
  | .lockedSection call =>
      match state.calls call with
      | some (.asking started asked) =>
          some ({ state with settingsCache := some (state.refreshed asked) }.setCall call
            (.overlaying started (state.refreshed asked).2))
      | _ => none
  | .keep call =>
      match state.calls call with
      | some (.overlaying started snapshot) =>
          some ({ state with cache := some (started, build snapshot) }.setCall call
            (.returning started (build snapshot)))
      | _ => none
  | .give call => (state.given call).map (fun _ => state.setCall call .done)

/-- Each overlaid value was the stored one at some instant of the last thirty
seconds.  Different values may be from different instants, as no edit touches more
than one. -/
def Fresh (state : State) (settings : Settings) : Prop :=
  forall key value, settings.values key = some value ->
    HeldSince state.initial state.edits (state.now - ttl) state.now key
      (fun row => overlaid key row = some value)

def GivesFresh (state : State) : Event -> Prop
  | .give call => forall entry, state.given call = some entry -> Fresh state entry.2
  | _ => True

/-- What is returned was read less than thirty seconds ago.  It is a condition on
the schedule, because when rows are read does not depend on what is in them. -/
def GivesRecent (state : State) : Event -> Prop
  | .give call => forall entry, state.given call = some entry -> state.now - ttl < entry.2.readAt
  | _ => True

/-- Everything a step can do, with its guards.  Invariants of the caches are proved
by cases on it. -/
inductive Effect (state : State) : Event -> State -> Prop
  | tick {later : Int} (forward : state.now ≤ later) : Effect state (.tick later) { state with now := later }
  | setSetting {key : String} {value : Option String} :
      Effect state (.setSetting key value) { state with edits := state.edits ++ [⟨state.now, key, value⟩] }
  | clear : Effect state .clear { state with settingsCache := none }
  | served {call : Nat} {entry : Int × Settings} (kept : state.cache = some entry)
      (valid : state.now - entry.1 < ttl) :
      Effect state (.getSettings call) (state.setCall call .cached)
  | began {call : Nat} : Effect state (.getSettings call) (state.setCall call (.building state.now))
  | ask {call : Nat} {started : Int} (building : state.calls call = some (.building started)) :
      Effect state (.ask call) (state.setCall call (.asking started state.now))
  | lockedSection {call : Nat} {started asked : Int} (asking : state.calls call = some (.asking started asked)) :
      Effect state (.lockedSection call)
        ({ state with settingsCache := some (state.refreshed asked) }.setCall call
          (.overlaying started (state.refreshed asked).2))
  | keep {call : Nat} {started : Int} {snapshot : Snapshot}
      (overlaying : state.calls call = some (.overlaying started snapshot)) :
      Effect state (.keep call)
        ({ state with cache := some (started, build snapshot) }.setCall call
          (.returning started (build snapshot)))
  | give {call : Nat} {entry : Int × Settings} (given : state.given call = some entry) :
      Effect state (.give call) (state.setCall call .done)

variable {state next : State} {event : Event}

theorem effect_of_step (taken : step state event = some next) : Effect state event next := by
  cases event with
  | tick later =>
      simp only [step] at taken
      split at taken
      · rename_i forward
        cases taken
        exact Effect.tick forward
      · cases taken
  | setSetting key value =>
      cases taken
      exact Effect.setSetting
  | clear =>
      cases taken
      exact Effect.clear
  | getSettings call =>
      simp only [step] at taken
      split at taken
      · cases taken
      · split at taken
        · rename_i stamp settings kept
          split at taken
          · rename_i valid
            cases taken
            exact Effect.served kept valid
          · cases taken
            exact Effect.began
        · cases taken
          exact Effect.began
  | ask call =>
      simp only [step] at taken
      split at taken
      · rename_i started building
        cases taken
        exact Effect.ask building
      · cases taken
  | lockedSection call =>
      simp only [step] at taken
      split at taken
      · rename_i started asked asking
        cases taken
        exact Effect.lockedSection asking
      · cases taken
  | keep call =>
      simp only [step] at taken
      split at taken
      · rename_i started snapshot overlaying
        cases taken
        exact Effect.keep overlaying
      · cases taken
  | give call =>
      rcases Option.map_eq_some_iff.mp taken with ⟨entry, given, rfl⟩
      exact Effect.give given

theorem calls_setCall {call other : Nat} {status found : Call}
    (held : (state.setCall call status).calls other = some found) :
    (other = call ∧ found = status) ∨ state.calls other = some found :=
  (Memo.update_eq_some held).symm

/-! ## What is kept -/

/-- What a call has in hand. -/
def Call.Holds (good : Settings -> Prop) : Call -> Prop
  | .overlaying _ snapshot => good (build snapshot)
  | .returning _ settings => good settings
  | .cached | .building _ | .asking _ _ | .done => True

/-- Whatever is kept or in the hands of a call is good, or builds good settings.  It
is stated for any property of settings, since several of them are kept for the same
reason. -/
structure Kept (good : Settings -> Prop) (state : State) : Prop where
  inner : forall entry, state.settingsCache = some entry -> good (build entry.2)
  outer : forall entry, state.cache = some entry -> good entry.2
  calls : forall call status, state.calls call = some status -> status.Holds good

variable {good better : Settings -> Prop}

theorem kept_fresh (good : Settings -> Prop) (initial : Rows) (now : Int) :
    Kept good (State.fresh initial now) where
  inner := fun _ none => by cases none
  outer := fun _ none => by cases none
  calls := fun _ _ none => by cases none

theorem Kept.mono (kept : Kept better state) (weaken : forall settings, better settings -> good settings) :
    Kept good state where
  inner := fun entry held => weaken _ (kept.inner entry held)
  outer := fun entry held => weaken _ (kept.outer entry held)
  calls := by
    intro call status held
    have found := kept.calls call status held
    cases status with
    | overlaying started snapshot => exact weaken _ found
    | returning started settings => exact weaken _ found
    | cached => trivial
    | building started => trivial
    | asking started asked => trivial
    | done => trivial

/-- A new status is as good as what the call has in hand. -/
theorem Kept.setCall (kept : Kept good state) (call : Nat) {status : Call} (own : status.Holds good) :
    Kept good (state.setCall call status) where
  inner := kept.inner
  outer := kept.outer
  calls := by
    intro other found held
    rcases calls_setCall held with ⟨_, rfl⟩ | before
    · exact own
    · exact kept.calls other found before

/-- If what can be read now is good, the next state keeps good things too. -/
theorem Kept.preserved (kept : Kept good state) (readable : good (build state.select))
    (taken : step state event = some next) : Kept good next := by
  cases effect_of_step taken with
  | tick forward => exact ⟨kept.inner, kept.outer, kept.calls⟩
  | setSetting => exact ⟨kept.inner, kept.outer, kept.calls⟩
  | clear => exact ⟨fun _ none => (by cases none), kept.outer, kept.calls⟩
  | served entry valid => exact kept.setCall _ trivial
  | began => exact kept.setCall _ trivial
  | ask building => exact kept.setCall _ trivial
  | @lockedSection call started asked asking =>
      have refreshed : good (build (state.refreshed asked).2) := by
        rcases Memo.refreshed_cases ttl state.settingsCache false asked state.select with before | read
        · exact kept.inner _ before
        · rw [State.refreshed, read]
          exact readable
      have keeping : Kept good { state with settingsCache := some (state.refreshed asked) } :=
        ⟨fun entry held => Option.some.inj held ▸ refreshed, kept.outer, kept.calls⟩
      exact keeping.setCall call refreshed
  | @keep call started snapshot overlaying =>
      have built : good (build snapshot) := kept.calls call _ overlaying
      have keeping : Kept good { state with cache := some (started, build snapshot) } :=
        ⟨kept.inner, fun entry held => Option.some.inj held ▸ built, kept.calls⟩
      exact keeping.setCall call built
  | give given => exact kept.setCall _ trivial

theorem Kept.given (kept : Kept good state) {call : Nat} {entry : Int × Settings}
    (given : state.given call = some entry) : good entry.2 := by
  unfold State.given at given
  split at given
  · exact kept.outer entry given
  · rename_i started settings returning
    cases given
    exact kept.calls call _ returning
  · cases given

theorem now_le_of_step (taken : step state event = some next) : state.now ≤ next.now := by
  cases effect_of_step taken with
  | tick forward => exact forward
  | _ => exact le_refl _

/-- The values are those after the edits that were seen; what was not seen came
later than the reading.  Every settings object of the process has this property. -/
structure BuiltIn (state : State) (settings : Settings) : Prop where
  readBefore : settings.readAt ≤ state.now
  seenMade : settings.seen ≤ state.edits.length
  values : forall key, settings.values key =
    overlaid key (after state.initial (state.edits.take settings.seen) key)
  unseen : forall edit, edit ∈ state.edits.drop settings.seen -> settings.readAt ≤ edit.time

theorem builtIn_select (state : State) : BuiltIn state (build state.select) where
  readBefore := le_refl _
  seenMade := le_refl _
  values := by
    intro key
    change overlaid key (after state.initial state.edits key) =
      overlaid key (after state.initial (state.edits.take state.edits.length) key)
    rw [List.take_length]
  unseen := by
    intro edit member
    change edit ∈ state.edits.drop state.edits.length at member
    rw [List.drop_length] at member
    cases member

theorem BuiltIn.preserved {settings : Settings} (built : BuiltIn state settings)
    (taken : step state event = some next) : BuiltIn next settings := by
  cases effect_of_step taken with
  | tick forward => exact ⟨le_trans built.readBefore forward, built.seenMade, built.values, built.unseen⟩
  | @setSetting key value =>
      refine ⟨built.readBefore, ?_, ?_, ?_⟩
      · change settings.seen ≤ (state.edits ++ [_]).length
        rw [List.length_append]
        exact Nat.le_add_right_of_le built.seenMade
      · intro other
        change settings.values other =
          overlaid other (after state.initial ((state.edits ++ [_]).take settings.seen) other)
        rw [List.take_append_of_le_length built.seenMade]
        exact built.values other
      · intro edit member
        change edit ∈ (state.edits ++ [_]).drop settings.seen at member
        rw [List.drop_append] at member
        rcases List.mem_append.mp member with before | last
        · exact built.unseen edit before
        · rw [List.mem_singleton.mp (List.mem_of_mem_drop last)]
          exact built.readBefore
  | _ => exact ⟨built.readBefore, built.seenMade, built.values, built.unseen⟩

/-- The invariant of the caches: edits are in the order of their times, and whatever
is kept was built from what was stored at some instant. -/
structure Consistent (state : State) : Prop where
  ordered : InOrder state.edits
  made : forall edit, edit ∈ state.edits -> edit.time ≤ state.now
  kept : Kept (BuiltIn state) state

theorem consistent_fresh (initial : Rows) (now : Int) : Consistent (State.fresh initial now) where
  ordered := List.Pairwise.nil
  made := fun _ none => by cases none
  kept := kept_fresh _ initial now

theorem Consistent.preserved (consistent : Consistent state) (taken : step state event = some next) :
    Consistent next := by
  have kept : Kept (BuiltIn next) next :=
    (consistent.kept.preserved (builtIn_select state) taken).mono (fun _ built => built.preserved taken)
  cases effect_of_step taken with
  | tick forward =>
      exact ⟨consistent.ordered, fun edit member => le_trans (consistent.made edit member) forward, kept⟩
  | setSetting =>
      refine ⟨inOrder_concat consistent.ordered consistent.made, ?_, kept⟩
      intro edit member
      rcases List.mem_append.mp member with before | last
      · exact consistent.made edit before
      · rw [List.mem_singleton.mp last]
  | _ => exact ⟨consistent.ordered, consistent.made, kept⟩

theorem consistent_of_run {initial : Rows} {now : Int} {events : List Event} {last : State}
    (reached : run step (State.fresh initial now) events = some last) : Consistent last :=
  run_invariant_always (fun _ _ _ holds taken => Consistent.preserved holds taken)
    (consistent_fresh initial now) reached

theorem window (now : Int) : now - ttl < now :=
  Int.sub_lt_self now (by decide)

theorem Consistent.fresh (consistent : Consistent state) {settings : Settings}
    (built : BuiltIn state settings) (recent : state.now - ttl < settings.readAt) : Fresh state settings := by
  intro key value set
  rw [built.values] at set
  apply (heldSince_iff_place consistent.ordered consistent.made (window state.now)).mpr
  refine ⟨_, _, (List.take_append_drop settings.seen state.edits).symm, ?_, set⟩
  exact fun edit member => lt_of_lt_of_le recent (built.unseen edit member)

theorem Consistent.givesFresh (consistent : Consistent state) (recent : GivesRecent state event) :
    GivesFresh state event := by
  cases event with
  | give call => exact fun entry given => consistent.fresh (consistent.kept.given given) (recent entry given)
  | _ => trivial

/-- In a run that returns nothing that was read thirty seconds ago or before, all
settings that are returned are fresh. -/
theorem fresh_of_recent {initial : Rows} {now : Int} {events : List Event}
    (recent : Along step GivesRecent (State.fresh initial now) events) :
    Along step GivesFresh (State.fresh initial now) events :=
  Along.of_invariant (fun _ _ _ consistent _ taken => Consistent.preserved consistent taken)
    (fun _ _ consistent allowed => Consistent.givesFresh consistent allowed)
    (consistent_fresh initial now) recent

/-- A call that builds the settings reads the table for it, and what is returned
began to be built less than thirty seconds ago. -/
def Prompt (state : State) : Event -> Prop
  | .lockedSection call => forall started asked, state.calls call = some (.asking started asked) ->
      Memo.mustLoad ttl state.settingsCache false asked = true
  | .give call => forall entry, state.given call = some entry -> state.now - ttl < entry.1
  | _ => True

/-- A call reads after it began. -/
def Call.Timely (now : Int) : Call -> Prop
  | .building started => started ≤ now
  | .asking started _ => started ≤ now
  | .overlaying started snapshot => started ≤ snapshot.readAt
  | .returning started settings => started ≤ settings.readAt
  | .cached | .done => True

/-- A call reads after it began, so a stamp is never later than the reading it
stands for. -/
structure Timely (state : State) : Prop where
  outer : forall entry, state.cache = some entry -> entry.1 ≤ entry.2.readAt
  calls : forall call status, state.calls call = some status -> status.Timely state.now

theorem timely_fresh (initial : Rows) (now : Int) : Timely (State.fresh initial now) where
  outer := fun _ none => by cases none
  calls := fun _ _ none => by cases none

theorem Call.Timely.tick {now later : Int} {status : Call} (timely : status.Timely now)
    (forward : now ≤ later) : status.Timely later := by
  cases status with
  | building started => exact le_trans timely forward
  | asking started asked => exact le_trans timely forward
  | _ => exact timely

theorem Timely.setCall (timely : Timely state) (call : Nat) {status : Call}
    (own : status.Timely state.now) : Timely (state.setCall call status) where
  outer := timely.outer
  calls := by
    intro other found held
    rcases calls_setCall held with ⟨_, rfl⟩ | before
    · exact own
    · exact timely.calls other found before

theorem Timely.preserved (timely : Timely state) (prompt : Prompt state event)
    (taken : step state event = some next) : Timely next := by
  cases effect_of_step taken with
  | tick forward => exact ⟨timely.outer, fun call status held => (timely.calls call status held).tick forward⟩
  | setSetting => exact ⟨timely.outer, timely.calls⟩
  | clear => exact ⟨timely.outer, timely.calls⟩
  | served kept valid => exact timely.setCall _ trivial
  | began => exact timely.setCall _ (le_refl _)
  | @ask call started building =>
      have before : started ≤ state.now := timely.calls call _ building
      exact timely.setCall call before
  | @lockedSection call started asked asking =>
      have before : started ≤ state.now := timely.calls call _ asking
      have read : started ≤ (state.refreshed asked).2.readAt := by
        rw [State.refreshed, Memo.refreshed_of_mustLoad (prompt started asked asking)]
        exact before
      have keeping : Timely { state with settingsCache := some (state.refreshed asked) } :=
        ⟨timely.outer, timely.calls⟩
      exact keeping.setCall call read
  | @keep call started snapshot overlaying =>
      have read : started ≤ snapshot.readAt := timely.calls call _ overlaying
      have keeping : Timely { state with cache := some (started, build snapshot) } :=
        ⟨fun entry held => (by cases held; exact read), timely.calls⟩
      exact keeping.setCall call read
  | give given => exact timely.setCall _ trivial

theorem Timely.given (timely : Timely state) {call : Nat} {entry : Int × Settings}
    (given : state.given call = some entry) : entry.1 ≤ entry.2.readAt := by
  unfold State.given at given
  split at given
  · exact timely.outer entry given
  · rename_i started settings returning
    cases given
    exact timely.calls call _ returning
  · cases given

theorem Timely.givesRecent (timely : Timely state) (prompt : Prompt state event) : GivesRecent state event := by
  cases event with
  | give call => exact fun entry given => lt_of_lt_of_le (prompt entry given) (timely.given given)
  | _ => trivial

/-- If no call builds from rows that were kept, and none is slow, what is returned
was read less than thirty seconds ago. -/
theorem recent_of_prompt {initial : Rows} {now : Int} {events : List Event}
    (prompt : Along step Prompt (State.fresh initial now) events) :
    Along step GivesRecent (State.fresh initial now) events :=
  Along.of_invariant (fun _ _ _ timely allowed taken => Timely.preserved timely allowed taken)
    (fun _ _ timely allowed => Timely.givesRecent timely allowed) (timely_fresh initial now) prompt

/-- A limit of 1000 rows is set to 500 while the first call is busy. -/
def edited : List Event :=
  [.getSettings 1, .tick 5000000, .ask 1, .lockedSection 1, .tick 10000000,
    .setSetting "gateway_max_row_limit" (some "500"), .keep 1, .give 1]

/-- The outer cache expires first, and is built again from the inner one. -/
def keptTwice : List Event :=
  edited ++ [.tick 30000000000, .getSettings 2, .tick 30001000000, .ask 2, .lockedSection 2, .keep 2,
    .give 2, .tick 59999000000, .getSettings 3]

def limitRows : Rows :=
  fun key => if key = "gateway_max_row_limit" then some (some "1000") else none

/-- Almost a minute after the edit the old value is returned. -/
theorem stale_settings_are_returned :
    ¬ Along step GivesFresh (State.fresh limitRows 0) (keptTwice ++ [.give 3]) := by
  intro fresh
  have given := along_iff_splits.mp fresh keptTwice (.give 3) [] _ rfl rfl
  have consistent := @consistent_of_run limitRows 0 keptTwice _ rfl
  have held := given _ rfl "gateway_max_row_limit" (.int 1000) (by decide)
  rcases (heldSince_iff consistent.ordered consistent.made (window _)).mp held with
    before | ⟨edit, member, recent, _⟩
  · exact absurd before (by decide)
  · rw [List.mem_singleton.mp member] at recent
    exact absurd recent (by decide)

end SettingsCaches
end WarehouseSync

import WarehouseSync.Gateway.SettingsCaches

namespace WarehouseSync
namespace SettingsCaches

open EditLogs Transition

/-!
# The age of returned settings

When the caches are filled and used does not depend on what is stored.  So it is
a matter of the calls and their times alone whether all that is returned was read
less than thirty seconds ago.  If it was, no edits can make it stale; if something
was not, an edit that follows its reading does.
-/

def Event.scheduled : Event -> Bool
  | .setSetting _ _ => false
  | _ => true

/-- What happens apart from the edits.  Whether settings may be too old depends on
nothing else, since the caches do not look at what is stored. -/
def schedule (events : List Event) : List Event :=
  events.filter Event.scheduled

def Snapshot.erase (snapshot : Snapshot) : Snapshot :=
  { rows := fun _ => none, readAt := snapshot.readAt, seen := 0 }

def Settings.erase (settings : Settings) : Settings :=
  { values := fun _ => none, readAt := settings.readAt, seen := 0 }

def Call.erase : Call -> Call
  | .cached => .cached
  | .building started => .building started
  | .asking started asked => .asking started asked
  | .overlaying started snapshot => .overlaying started snapshot.erase
  | .returning started settings => .returning started settings.erase
  | .done => .done

/-- The state without anything that was ever stored.  Two runs of one schedule agree
on it, whatever is edited in them. -/
def State.erase (state : State) : State :=
  { now := state.now
    initial := fun _ => none
    edits := []
    settingsCache := state.settingsCache.map (Prod.map id Snapshot.erase)
    cache := state.cache.map (Prod.map id Settings.erase)
    calls := fun call => (state.calls call).map Call.erase }

variable {state next : State} {event : Event}

theorem calls_erase (state : State) (call : Nat) : state.erase.calls call = (state.calls call).map Call.erase :=
  rfl

theorem cache_erase (state : State) : state.erase.cache = state.cache.map (Prod.map id Settings.erase) :=
  rfl

theorem erase_setCall (state : State) (call : Nat) (status : Call) :
    (state.setCall call status).erase = state.erase.setCall call status.erase :=
  congrArg (fun calls => { state.erase with calls := calls })
    (Function.comp_update (Option.map Call.erase) state.calls call (some status))

theorem refreshed_erase (state : State) (asked : Int) :
    state.erase.refreshed asked = Prod.map id Snapshot.erase (state.refreshed asked) :=
  Memo.refreshed_map ttl state.settingsCache false asked state.select Snapshot.erase

theorem given_erase (state : State) (call : Nat) :
    state.erase.given call = (state.given call).map (Prod.map id Settings.erase) := by
  unfold State.given
  rw [calls_erase]
  cases state.calls call with
  | none => rfl
  | some status =>
      cases status with
      | cached => rfl
      | building started => rfl
      | asking started asked => rfl
      | overlaying started snapshot => rfl
      | returning started settings => rfl
      | done => rfl

/-- Calls take the same steps whatever is stored. -/
theorem step_erase (state : State) (scheduled : event.scheduled = true) :
    step state.erase event = (step state event).map State.erase := by
  cases event with
  | tick later =>
      change (if state.now ≤ later then some { state.erase with now := later } else none) =
        (if state.now ≤ later then some { state with now := later } else none).map State.erase
      split
      · rfl
      · rfl
  | setSetting key value => cases scheduled
  | clear => rfl
  | getSettings call =>
      cases found : state.calls call with
      | some status => simp only [step, calls_erase, found, Option.map_some, Option.map_none]
      | none =>
          cases kept : state.cache with
          | none =>
              simp only [step, calls_erase, cache_erase, found, kept, Option.map_none, Option.map_some,
                erase_setCall]
              rfl
          | some entry =>
              simp only [step, calls_erase, cache_erase, found, kept, Option.map_none, Option.map_some]
              change (if state.now - entry.1 < ttl then _ else _) = _
              split
              · rw [Option.map_some, erase_setCall]
                rfl
              · rw [Option.map_some, erase_setCall]
                rfl
  | ask call =>
      cases found : state.calls call with
      | none => simp only [step, calls_erase, found, Option.map_none]
      | some status =>
          simp only [step, calls_erase, found, Option.map_some]
          cases status with
          | building started =>
              simp only [Call.erase, Option.map_some, erase_setCall]
              rfl
          | _ => rfl
  | lockedSection call =>
      cases found : state.calls call with
      | none => simp only [step, calls_erase, found, Option.map_none]
      | some status =>
          simp only [step, calls_erase, found, Option.map_some]
          cases status with
          | asking started asked =>
              simp only [Call.erase, Option.map_some, erase_setCall, refreshed_erase]
              rfl
          | _ => rfl
  | keep call =>
      cases found : state.calls call with
      | none => simp only [step, calls_erase, found, Option.map_none]
      | some status =>
          simp only [step, calls_erase, found, Option.map_some]
          cases status with
          | overlaying started snapshot =>
              simp only [Call.erase, Option.map_some, erase_setCall]
              rfl
          | _ => rfl
  | give call =>
      change (state.erase.given call).map _ = ((state.given call).map _).map State.erase
      rw [given_erase]
      cases state.given call with
      | none => rfl
      | some entry =>
          change some (state.erase.setCall call .done) = some (state.setCall call .done).erase
          rw [erase_setCall]
          rfl

theorem run_erase (state : State) (events : List Event) :
    run step state.erase (schedule events) = (run step state events).map State.erase := by
  induction events generalizing state with
  | nil => rfl
  | cons event events ih =>
      cases scheduled : event.scheduled with
      | true =>
          have first : schedule (event :: events) = event :: schedule events :=
            List.filter_cons_of_pos scheduled
          rw [first]
          change (step state.erase event).bind _ = ((step state event).bind _).map State.erase
          rw [step_erase state scheduled, Option.bind_map, Option.map_bind]
          exact congrArg ((step state event).bind) (funext ih)
      | false =>
          cases event with
          | setSetting key value => exact ih { state with edits := state.edits ++ [⟨state.now, key, value⟩] }
          | _ => cases scheduled

theorem givesRecent_erase (state : State) (event : Event) :
    GivesRecent state.erase event ↔ GivesRecent state event := by
  cases event with
  | give call =>
      change (forall entry, state.erase.given call = some entry -> state.now - ttl < entry.2.readAt) ↔
        forall entry, state.given call = some entry -> state.now - ttl < entry.2.readAt
      rw [given_erase]
      constructor
      · intro recent entry given
        exact recent (Prod.map id Settings.erase entry) (congrArg (Option.map _) given)
      · intro recent entry given
        rcases Option.map_eq_some_iff.mp given with ⟨built, held, rfl⟩
        exact recent built held
  | _ => exact Iff.rfl

/-- How old the returned settings are depends on the schedule only. -/
theorem along_erase (state : State) (events : List Event) :
    Along step GivesRecent state.erase (schedule events) ↔ Along step GivesRecent state events := by
  induction events generalizing state with
  | nil => exact Iff.rfl
  | cons event events ih =>
      cases scheduled : event.scheduled with
      | true =>
          have first : schedule (event :: events) = event :: schedule events :=
            List.filter_cons_of_pos scheduled
          rw [first]
          refine and_congr (givesRecent_erase state event) ?_
          rw [step_erase state scheduled]
          constructor
          · intro onward next taken
            exact (ih next).mp (onward next.erase (congrArg (Option.map _) taken))
          · intro onward erased taken
            rcases Option.map_eq_some_iff.mp taken with ⟨next, before, rfl⟩
            exact (ih next).mpr (onward next before)
      | false =>
          cases event with
          | setSetting key value =>
              have rest := ih { state with edits := state.edits ++ [⟨state.now, key, value⟩] }
              constructor
              · intro recent
                refine ⟨trivial, fun next taken => ?_⟩
                cases taken
                exact rest.mp recent
              · exact fun recent => rest.mpr (recent.2 _ rfl)
          | _ => cases scheduled

def levelRows : Rows :=
  fun _ => some (some "INFO")

/-- The log level is changed before the clock passes `readAt`, and at no other time
to anything else.  This edit shows that settings read by then are too old. -/
def probe (readAt : Int) : Event -> List Event
  | .tick later => if readAt < later then [.setSetting "log_level" (some "DEBUG"), .tick later] else [.tick later]
  | .setSetting _ _ => [.setSetting "" none]
  | event => [event]

theorem schedule_append (first second : List Event) :
    schedule (first ++ second) = schedule first ++ schedule second :=
  List.filter_append first second

theorem schedule_probe (readAt : Int) (event : Event) : schedule (probe readAt event) = schedule [event] := by
  cases event with
  | tick later =>
      change schedule (if readAt < later then [.setSetting "log_level" (some "DEBUG"), .tick later]
        else [.tick later]) = schedule [.tick later]
      split
      · rfl
      · rfl
  | _ => rfl

theorem schedule_flatMap_probe (readAt : Int) (events : List Event) :
    schedule (events.flatMap (probe readAt)) = schedule events := by
  induction events with
  | nil => rfl
  | cons event events ih =>
      calc schedule ((event :: events).flatMap (probe readAt))
          = schedule (probe readAt event) ++ schedule (events.flatMap (probe readAt)) := by
            rw [List.flatMap_cons, schedule_append]
        _ = schedule [event] ++ schedule events := by rw [schedule_probe, ih]
        _ = schedule (event :: events) := (schedule_append [event] events).symm

/-- What was read up to `readAt` has the level from before the edits, and once that
time has passed the level is another. -/
structure Probed (readAt : Int) (state : State) : Prop where
  initially : state.initial "log_level" = some (some "INFO")
  only : forall edit, edit ∈ state.edits -> edit.key = "log_level" -> edit.value = some "DEBUG"
  early : state.now ≤ readAt -> forall edit, edit ∈ state.edits -> edit.key ≠ "log_level"
  late : readAt < state.now ->
    Exists fun edit => edit ∈ state.edits ∧ edit.key = "log_level" ∧ edit.time ≤ readAt
  kept : Kept (fun settings => settings.readAt ≤ readAt -> settings.values "log_level" = some (.str "INFO")) state

variable {readAt : Int}

theorem Probed.readable (probed : Probed readAt state) (now : (build state.select).readAt ≤ readAt) :
    (build state.select).values "log_level" = some (.str "INFO") := by
  change overlaid "log_level" (after state.initial state.edits "log_level") = _
  rw [after_of_untouched (probed.early now), probed.initially]
  rfl

/-- Steps that make no edit and take no time. -/
theorem Probed.preserved (probed : Probed readAt state) (taken : step state event = some next)
    (initial : next.initial = state.initial) (edits : next.edits = state.edits) (now : next.now = state.now) :
    Probed readAt next where
  initially := initial ▸ probed.initially
  only := edits ▸ probed.only
  early := now ▸ edits ▸ probed.early
  late := now ▸ edits ▸ probed.late
  kept := probed.kept.preserved probed.readable taken

/-- The edit before the clock passes the time of the reading. -/
theorem Probed.change (probed : Probed readAt state) {later : Int} (passed : readAt < later) :
    Probed readAt { state with
      edits := state.edits ++ [⟨state.now, "log_level", some "DEBUG"⟩]
      now := later } where
  initially := probed.initially
  only := by
    intro edit member level
    rcases List.mem_append.mp member with before | last
    · exact probed.only edit before level
    · rw [List.mem_singleton.mp last]
  early := fun early => absurd early (not_le.mpr passed)
  late := by
    intro _
    rcases le_or_gt state.now readAt with early | late
    · exact ⟨_, List.mem_append_right _ List.mem_cons_self, rfl, early⟩
    · rcases probed.late late with ⟨edit, member, level, before⟩
      exact ⟨edit, List.mem_append_left _ member, level, before⟩
  kept := ⟨probed.kept.inner, probed.kept.outer, probed.kept.calls⟩

theorem Probed.tick (probed : Probed readAt state) {later : Int} (forward : state.now ≤ later)
    (before : later ≤ readAt) : Probed readAt { state with now := later } where
  initially := probed.initially
  only := probed.only
  early := fun _ => probed.early (le_trans forward before)
  late := fun late => absurd before (not_le.mpr late)
  kept := ⟨probed.kept.inner, probed.kept.outer, probed.kept.calls⟩

theorem other_key : "" ≠ "log_level" := by
  decide

/-- An edit of something else. -/
theorem Probed.other (probed : Probed readAt state) :
    Probed readAt { state with edits := state.edits ++ [⟨state.now, "", none⟩] } where
  initially := probed.initially
  only := by
    intro edit member level
    rcases List.mem_append.mp member with before | last
    · exact probed.only edit before level
    · rw [List.mem_singleton.mp last] at level
      exact absurd level other_key
  early := by
    intro early edit member
    rcases List.mem_append.mp member with before | last
    · exact probed.early early edit before
    · rw [List.mem_singleton.mp last]
      exact other_key
  late := by
    intro late
    rcases probed.late late with ⟨edit, member, level, before⟩
    exact ⟨edit, List.mem_append_left _ member, level, before⟩
  kept := ⟨probed.kept.inner, probed.kept.outer, probed.kept.calls⟩

theorem Probed.probe (probed : Probed readAt state) (taken : run step state (probe readAt event) = some next) :
    Probed readAt next := by
  cases event with
  | tick later =>
      change run step state (if readAt < later then [.setSetting "log_level" (some "DEBUG"), .tick later]
        else [.tick later]) = some next at taken
      split at taken
      · rename_i passed
        rcases run_cons_eq_some.mp taken with ⟨edited, same, ticked⟩
        cases same
        rcases run_cons_eq_some.mp ticked with ⟨moved, ticks, ended⟩
        cases ended
        cases effect_of_step ticks with
        | tick forward => exact probed.change passed
      · rename_i before
        rcases run_cons_eq_some.mp taken with ⟨moved, ticks, ended⟩
        cases ended
        cases effect_of_step ticks with
        | tick forward => exact probed.tick forward (not_lt.mp before)
  | setSetting key value =>
      cases taken
      exact probed.other
  | _ =>
      rcases run_cons_eq_some.mp taken with ⟨moved, same, ended⟩
      cases ended
      cases effect_of_step same with
      | _ => exact probed.preserved same rfl rfl rfl

theorem probed_of_run {now : Int} {events : List Event} {last : State} (start : now ≤ readAt)
    (reached : run step (State.fresh levelRows now) (events.flatMap (SettingsCaches.probe readAt)) = some last) :
    Probed readAt last := by
  have onward : forall (events : List Event) (state : State), Probed readAt state ->
      run step state (events.flatMap (SettingsCaches.probe readAt)) = some last -> Probed readAt last := by
    intro events
    induction events with
    | nil =>
        intro state probed ended
        cases ended
        exact probed
    | cons event events ih =>
        intro state probed ran
        rw [List.flatMap_cons] at ran
        rcases run_append_eq_some.mp ran with ⟨middle, first, rest⟩
        exact ih middle (probed.probe first) rest
  apply onward events (State.fresh levelRows now) _ reached
  exact ⟨rfl, fun _ none => (by cases none), fun _ _ none => (by cases none),
    fun late => absurd start (not_le.mpr late), kept_fresh _ levelRows now⟩

/-- Once the time of the reading is thirty seconds ago, it is too old. -/
theorem Probed.stale (probed : Probed readAt state) (consistent : Consistent state) {settings : Settings}
    (read : settings.values "log_level" = some (.str "INFO")) (old : readAt ≤ state.now - ttl) :
    ¬ Fresh state settings := by
  intro fresh
  have held := fresh "log_level" (.str "INFO") read
  rcases (heldSince_iff consistent.ordered consistent.made (window state.now)).mp held with
    before | ⟨edit, member, _, level, stored⟩
  · have level : after state.initial (upTo (state.now - ttl) state.edits) "log_level" = some (some "DEBUG") := by
      apply after_of_only
      · exact fun edit member => probed.only edit (List.mem_filter.mp member).1
      · rcases probed.late (lt_of_le_of_lt old (window state.now)) with ⟨edit, member, level, early⟩
        exact ⟨edit, List.mem_filter.mpr ⟨member, decide_eq_true (le_trans early old)⟩, level⟩
    rw [level] at before
    exact absurd before (by decide)
  · rw [probed.only edit member level] at stored
    exact absurd stored (by decide)

/-! ## Which schedules are safe -/

/-- Nothing was read before the process began. -/
theorem start_le_readAt {initial : Rows} {now : Int} {events : List Event} {last : State}
    (reached : run step (State.fresh initial now) events = some last) :
    now ≤ last.now ∧ Kept (fun settings => now ≤ settings.readAt) last := by
  apply @run_invariant_always State Event step
    (fun state => now ≤ state.now ∧ Kept (fun settings => now ≤ settings.readAt) state) _ _ _ _ _ reached
  · intro state event next holds taken
    exact ⟨le_trans holds.1 (now_le_of_step taken), holds.2.preserved holds.1 taken⟩
  · exact ⟨le_refl now, kept_fresh _ initial now⟩

/-- The same calls can be made whatever is stored and edited. -/
theorem exists_same_calls {initial other : Rows} {now : Int} {events edited : List Event} {last : State}
    (same : schedule edited = schedule events) (reached : run step (State.fresh initial now) events = some last) :
    Exists fun alike : State =>
      run step (State.fresh other now) edited = some alike ∧ alike.erase = last.erase := by
  have original := run_erase (State.fresh initial now) events
  have again := run_erase (State.fresh other now) edited
  rw [reached] at original
  rw [same] at again
  exact Option.map_eq_some_iff.mp (again.symm.trans original)

theorem given_same_calls {alike : State} (same : alike.erase = state.erase) {call : Nat} {entry : Int × Settings}
    (given : state.given call = some entry) :
    Exists fun found => alike.given call = some found ∧ found.2.readAt = entry.2.readAt := by
  have erased : (alike.given call).map (Prod.map id Settings.erase) =
      some (Prod.map id Settings.erase entry) := by
    rw [← given_erase, same, given_erase, given]
    rfl
  rcases Option.map_eq_some_iff.mp erased with ⟨found, held, equal⟩
  exact ⟨found, held, congrArg (fun pair => pair.2.readAt) equal⟩

/-- Whatever is edited during these calls, the settings they return are those of the
last thirty seconds, exactly if each of them is returned less than thirty seconds
after the rows were read that it was built from. -/
theorem settings_fresh_iff (rows : Rows) (now : Int) (events : List Event) :
    (forall initial edited, schedule edited = schedule events ->
        Along step GivesFresh (State.fresh initial now) edited) ↔
      Along step GivesRecent (State.fresh rows now) events := by
  constructor
  · intro fresh
    apply along_iff_splits.mpr
    intro first event rest middle split reached
    cases event with
    | give call =>
        intro entry given
        by_contra late
        -- the same calls, with an edit after the reading
        have same : schedule (first.flatMap (probe entry.2.readAt) ++ .give call :: rest) = schedule events := by
          rw [split, schedule_append, schedule_append, schedule_flatMap_probe]
        rcases exists_same_calls (schedule_flatMap_probe entry.2.readAt first) reached with ⟨alike, ran, equal⟩
        rcases given_same_calls equal given with ⟨found, held, readAt⟩
        have probed := probed_of_run ((start_le_readAt reached).2.given given) ran
        have read := probed.kept.given held (le_of_eq readAt)
        have old : entry.2.readAt ≤ alike.erase.now - ttl := by
          rw [equal]
          exact not_lt.mp late
        have stale := probed.stale (consistent_of_run ran) read old
        exact stale (along_iff_splits.mp (fresh levelRows _ same) _ (.give call) rest alike rfl ran found held)
    | _ => trivial
  · intro recent initial edited same
    apply fresh_of_recent
    apply (along_erase (State.fresh initial now) edited).mp
    rw [same]
    exact (along_erase (State.fresh rows now) events).mpr recent

end SettingsCaches
end WarehouseSync

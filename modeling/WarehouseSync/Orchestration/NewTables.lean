import WarehouseSync.Gateway.ConfigStore
import WarehouseSync.Load.CreationRace
import WarehouseSync.Orchestration.Tables

namespace WarehouseSync
namespace NewTables

open ConfigStore CreateTable IcebergWriter Tables Transition

/-!
# Which objects are bootstrapped (`orchestration/maintenance_job.py`)

`discover_new_tables_sensor` asks for a bootstrap of every selected object whose
lake table cannot be loaded.  The table is not the work of a whole bootstrap:
`plan_bootstrap` creates it before the first chunk is copied, and an incremental
run creates it too.

A history keeps a log of what happened to the tables, the newest first: which
was registered, which was removed, and which object was bootstrapped to the end.
-/

universe u

variable {φ : Type u}

/-- An object that a connection syncs.  The configuration is that of the tick or run
at hand, and only its names identify the object. -/
structure Target where
  conn : Connection
  cfg : TableConfig
deriving DecidableEq

/-- The catalog identifier of its lake table. -/
def Target.table (target : Target) : String × String :=
  (target.conn.icebergNamespace, target.cfg.icebergTableName)

def Target.key (target : Target) : Int × String :=
  (target.conn.id, target.cfg.fqn)

/-- The request for one run of `bootstrap_table_job`.  The run key is what Dagster
remembers: a second request with the same key starts nothing. -/
structure RunRequest where
  runKey : String
  connectionId : Int
  tableFqn : String
  tags : List (String × String)
deriving DecidableEq, Repr

def runRequest (target : Target) : RunRequest :=
  { runKey := "bootstrap:" ++ toString target.conn.id ++ ":" ++ target.cfg.fqn
    connectionId := target.conn.id
    tableFqn := target.cfg.fqn
    tags := [("connection", toString target.conn.id), ("table", target.cfg.fqn), ("kind", "bootstrap")] }

/-- What a tick of the sensor meets: the enabled connections with the objects that
`get_tables` finds, if it does not raise, and the errors of `load_table`. -/
structure Tick where
  connections : List (Connection × Option (List TableConfig))
  load : String × String -> Option Fault

/-- The objects of all connections; one connection that cannot be listed fails the
tick.  The code has no handler around the listing, so the other connections are not
served either. -/
def targetsOf : List (Connection × Option (List TableConfig)) -> Option (List Target)
  | [] => some []
  | (_, none) :: _ => none
  | (conn, some cfgs) :: rest =>
      (targetsOf rest).map (fun later => cfgs.map (fun cfg => { conn := conn, cfg := cfg }) ++ later)

def Tick.targets (tick : Tick) : Option (List Target) :=
  targetsOf tick.connections

/-- `load_table` raises, for whatever reason.  The sensor does not tell a table that
is not there from one that cannot be read. -/
def missing (catalogs : String × String -> Catalog φ) (tick : Tick) (target : Target) : Bool :=
  match loadTable (catalogs target.table) (tick.load target.table) with
  | .ok _ => false
  | .error _ => true

/-- The objects a request is emitted for. -/
def requested (catalogs : String × String -> Catalog φ) (tick : Tick) : List Target :=
  (tick.targets.getD []).filter (missing catalogs tick)

inductive Outcome where
  | raised
  | skip (reason : String)
  | requests (requests : List RunRequest)
deriving DecidableEq, Repr

/-- `discover_new_tables_sensor`.  It keeps no state of its own: every tick asks the
catalog again, and what it emits depends on nothing else. -/
def discoverNewTablesSensor (catalogs : String × String -> Catalog φ) (tick : Tick) : Outcome :=
  match tick.targets with
  | none => .raised
  | some _ =>
      match requested catalogs tick with
      | [] => .skip "all selected objects already bootstrapped"
      | targets => .requests (targets.map runRequest)

/-! ## Histories -/

/-- What becomes of a table or an object, as far as it matters for the sensor.  The
notes are not part of the system; they say in its terms what a run has done. -/
inductive Note where
  | registered (table : String × String)
  | removed (table : String × String)
  | bootstrapped (key : Int × String)
deriving DecidableEq, Repr

/-- A bootstrap run that was planned, with the number of chunks that are left. -/
structure BootRun where
  target : Target
  left : Nat
  ended : Bool
deriving DecidableEq

/-- The lake tables, the bootstrap runs and the log of a run of the system.  The
newest note comes first. -/
structure History (φ : Type u) where
  catalogs : String × String -> Catalog φ
  runs : List BootRun
  log : List Note

inductive Event (φ : Type u) where
  /-- `plan_bootstrap`: the table, then the chunks, if planning does not raise. -/
  | plan (target : Target) (schema : List String) (faults : Faults) (chunks : Option Nat)
  /-- A chunk is committed, with these files, or fails the run. -/
  | chunk (index : Nat) (files : Option (List φ))
  /-- `commit_chunks`, which ends the run. -/
  | finish (index : Nat) (succeeds : Bool)
  /-- An incremental run looks its table up. -/
  | incremental (target : Target) (schema : List String) (faults : Faults)
  /-- Any other commit, such as a merge or a schema change. -/
  | commit (table : String × String) (next : LakeTable φ)
  /-- The catalog entry is removed. -/
  | remove (table : String × String)
  /-- The metadata object of the table is deleted in S3. -/
  | loseMetadata (table : String × String)

/-- What a call of `create_or_get_table` did to the entry, judged by the location of
the metadata; a table that is created again has a new one. -/
def notes (table : String × String) (before after : Catalog φ) : List Note :=
  match before.entry, after.entry with
  | none, none => []
  | none, some _ => [.registered table]
  | some _, none => [.removed table]
  | some old, some new => if old.location = new.location then [] else [.registered table, .removed table]

/-- `create_or_get_table` for an object.  It is the model of the load layer at the
catalog of this table, with whatever faults it meets. -/
def ensure (history : History φ) (target : Target) (schema : List String) (faults : Faults) :
    History φ × CreateTable.Stage :=
  let request : CreateTable.Request := { schema := schema, partitionBy := target.cfg.partitionBy }
  let done := createOrGet request faults (history.catalogs target.table)
  ({ history with
    catalogs := Function.update history.catalogs target.table done.1
    log := notes target.table (history.catalogs target.table) done.1 ++ history.log }, done.2)

def endRun (history : History φ) (index : Nat) (run : BootRun) : History φ :=
  { history with runs := history.runs.set index { run with ended := true } }

/-- A run that has not ended. -/
def History.going (history : History φ) (index : Nat) : Option BootRun :=
  (history.runs[index]?).filter (fun run => !run.ended)

/-- One step of a bootstrap run, of an incremental run or of something else that
changes a lake table.  A run that cannot plan its chunks has already registered the
table, which then hides from the sensor that nothing was loaded. -/
def step (history : History φ) : Event φ -> Option (History φ)
  | .plan target schema faults chunks =>
      let planned := ensure history target schema faults
      match planned.2, chunks with
      | .returned, some count => some { planned.1 with
          runs := planned.1.runs ++ [{ target := target, left := count, ended := false }] }
      | _, _ => some planned.1
  | .chunk index files =>
      match history.going index, files with
      | none, _ => none
      | some run, none => some (endRun history index run)
      | some run, some files =>
          match run.left, (history.catalogs run.target.table).entry with
          | 0, _ => none
          | _ + 1, none => some (endRun history index run)
          | left + 1, some entry => some { history with
              catalogs := Function.update history.catalogs run.target.table
                ((history.catalogs run.target.table).swap
                  { entry.table with rows := entry.table.rows ++ files })
              runs := history.runs.set index { run with left := left } }
  | .finish index succeeds =>
      match history.going index with
      | none => none
      | some run =>
          if run.left ≠ 0 then none
          else if succeeds = true then
            some { endRun history index run with log := .bootstrapped run.target.key :: history.log }
          else some (endRun history index run)
  | .incremental target schema faults => some (ensure history target schema faults).1
  | .commit table next =>
      (history.catalogs table).entry.map (fun _ =>
        { history with
          catalogs := Function.update history.catalogs table ((history.catalogs table).swap next) })
  | .remove table =>
      (history.catalogs table).entry.map (fun _ =>
        { history with
          catalogs := Function.update history.catalogs table { history.catalogs table with entry := none }
          log := .removed table :: history.log })
  | .loseMetadata table =>
      (history.catalogs table).entry.map (fun entry =>
        let catalog := history.catalogs table
        { history with
          catalogs := Function.update history.catalogs table
            { catalog with deleted := entry.location :: catalog.deleted } })

/-- Nothing is registered yet. -/
def History.start : History φ :=
  { catalogs := fun _ => { entry := none, written := 0, deleted := [] }, runs := [], log := [] }

/-- What happened since the table was last absent.  The log is read backwards up to
the last removal, so a table that was wiped counts as new. -/
def since (table : String × String) (log : List Note) : List Note :=
  log.takeWhile (fun note => note != .removed table)

def RegisteredSince (history : History φ) (target : Target) : Prop :=
  Note.registered target.table ∈ since target.table history.log

def BootstrappedSince (history : History φ) (target : Target) : Prop :=
  Note.bootstrapped target.key ∈ since target.table history.log

/-- The sensor emits a request for the object.  It has to be among the objects of
the tick and the tick must not fail for another connection. -/
def Requested (history : History φ) (tick : Tick) (target : Target) : Prop :=
  target ∈ requested history.catalogs tick ∧
    discoverNewTablesSensor history.catalogs tick =
      .requests ((requested history.catalogs tick).map runRequest)

/-- The object is one that the tick looks at. -/
def Tick.Lists (tick : Tick) (target : Target) : Prop :=
  Exists fun cfgs : List TableConfig => (target.conn, some cfgs) ∈ tick.connections ∧ target.cfg ∈ cfgs

/-- `load_table` finds the entry but cannot load the table.  The sensor then asks
for a bootstrap, which drops an orphaned entry and creates the table. -/
def Unreadable (history : History φ) (tick : Tick) (target : Target) : Prop :=
  tick.load target.table ≠ none ∨ Exists fun entry : Entry φ =>
    (history.catalogs target.table).entry = some entry ∧
      (history.catalogs target.table).deleted.contains entry.location = true

variable {history next : History φ} {target : Target} {tick : Tick}

theorem since_removed (table : String × String) (log : List Note) :
    since table (.removed table :: log) = [] := by
  simp [since]

theorem since_cons {table : String × String} {note : Note} (log : List Note)
    (other : note ≠ .removed table) : since table (note :: log) = note :: since table log := by
  simp [since, other]

/-- The table is in the catalog exactly if it was registered since it was last
absent.  This invariant is what connects the log with the state of the catalogs. -/
def Logged (catalogs : String × String -> Catalog φ) (log : List Note) : Prop :=
  forall table, (catalogs table).entry.isSome = true ↔ Note.registered table ∈ since table log

/-- Only the entry of one table changes, and not whether it is there. -/
theorem Logged.update {catalogs : String × String -> Catalog φ} {log : List Note} (logged : Logged catalogs log)
    {table : String × String} {catalog : Catalog φ}
    (same : catalog.entry.isSome = (catalogs table).entry.isSome) :
    Logged (Function.update catalogs table catalog) log := by
  intro other
  by_cases here : other = table
  · subst here
    rw [Function.update_self, same]
    exact logged other
  · rw [Function.update_of_ne here]
    exact logged other

/-- The entry of one table comes or goes, and the log says so. -/
theorem Logged.register {catalogs : String × String -> Catalog φ} {log : List Note} (logged : Logged catalogs log)
    {table : String × String} {catalog : Catalog φ} (present : catalog.entry.isSome = true) :
    Logged (Function.update catalogs table catalog) (.registered table :: log) := by
  intro other
  by_cases here : other = table
  · subst here
    rw [Function.update_self, since_cons log (by rintro ⟨⟩)]
    exact iff_of_true present List.mem_cons_self
  · rw [Function.update_of_ne here, since_cons log (by rintro ⟨⟩), logged other, List.mem_cons]
    refine (or_iff_right ?_).symm
    rintro ⟨⟩
    exact here rfl

theorem Logged.remove {catalogs : String × String -> Catalog φ} {log : List Note} (logged : Logged catalogs log)
    {table : String × String} {catalog : Catalog φ} (absent : catalog.entry = none) :
    Logged (Function.update catalogs table catalog) (.removed table :: log) := by
  intro other
  by_cases here : other = table
  · subst here
    rw [Function.update_self, since_removed, absent]
    exact iff_of_false Bool.false_ne_true List.not_mem_nil
  · have elsewhere : Note.removed table ≠ Note.removed other := by
      rintro ⟨⟩
      exact here rfl
    rw [Function.update_of_ne here, since_cons log elsewhere, logged other, List.mem_cons]
    refine (or_iff_right ?_).symm
    rintro ⟨⟩

theorem Logged.notes {catalogs : String × String -> Catalog φ} {log : List Note} (logged : Logged catalogs log)
    (table : String × String) (catalog : Catalog φ) :
    Logged (Function.update catalogs table catalog) (notes table (catalogs table) catalog ++ log) := by
  unfold NewTables.notes
  cases before : (catalogs table).entry with
  | none =>
      cases after : catalog.entry with
      | none => exact logged.update (by rw [before, after])
      | some new => exact logged.register (by rw [after]; rfl)
  | some old =>
      cases after : catalog.entry with
      | none => exact logged.remove after
      | some new =>
          simp only
          split
          · exact logged.update (by rw [before, after]; rfl)
          · -- The old entry was removed before the new one was registered.
            have gone := @Logged.remove φ catalogs log logged table { catalog with entry := none } rfl
            have created := @Logged.register _ _ _ gone table catalog (by rw [after]; rfl)
            rw [Function.update_idem] at created
            exact created

theorem Logged.bootstrapped {catalogs : String × String -> Catalog φ} {log : List Note}
    (logged : Logged catalogs log) (key : Int × String) : Logged catalogs (.bootstrapped key :: log) := by
  intro table
  rw [since_cons log (by rintro ⟨⟩), logged table, List.mem_cons]
  refine (or_iff_right ?_).symm
  rintro ⟨⟩

theorem logged_ensure (logged : Logged history.catalogs history.log) (target : Target)
    (schema : List String) (faults : Faults) :
    Logged (ensure history target schema faults).1.catalogs (ensure history target schema faults).1.log :=
  logged.notes target.table _

/-- All that a step does to the catalogs and to the log.  The runs are left out,
because the sensor never looks at them. -/
inductive Effect (history : History φ) : (String × String -> Catalog φ) -> List Note -> Prop where
  | ensured (target : Target) (schema : List String) (faults : Faults) :
      Effect history (ensure history target schema faults).1.catalogs (ensure history target schema faults).1.log
  | unchanged : Effect history history.catalogs history.log
  | bootstrapped (key : Int × String) : Effect history history.catalogs (.bootstrapped key :: history.log)
  | committed (table : String × String) (lake : LakeTable φ)
      (present : (history.catalogs table).entry.isSome = true) :
      Effect history (Function.update history.catalogs table ((history.catalogs table).swap lake)) history.log
  | removed (table : String × String) :
      Effect history (Function.update history.catalogs table { history.catalogs table with entry := none })
        (.removed table :: history.log)
  | lost (table : String × String) (location : Nat) :
      Effect history
        (Function.update history.catalogs table
          { history.catalogs table with deleted := location :: (history.catalogs table).deleted })
        history.log

theorem step_effect {event : Event φ} (taken : step history event = some next) :
    Effect history next.catalogs next.log := by
  cases event with
  | plan target schema faults chunks =>
      simp only [step] at taken
      split at taken
      · cases taken
        exact .ensured target schema faults
      · cases taken
        exact .ensured target schema faults
  | chunk index files =>
      simp only [step] at taken
      split at taken
      · cases taken
      · cases taken
        exact .unchanged
      · split at taken
        · cases taken
        · cases taken
          exact .unchanged
        · rename_i present
          cases taken
          exact .committed _ _ (by rw [present]; rfl)
  | finish index succeeds =>
      simp only [step] at taken
      split at taken
      · cases taken
      · split at taken
        · cases taken
        · split at taken
          · cases taken
            exact .bootstrapped _
          · cases taken
            exact .unchanged
  | incremental target schema faults =>
      cases taken
      exact .ensured target schema faults
  | commit table lake =>
      rcases Option.map_eq_some_iff.mp taken with ⟨entry, present, rfl⟩
      exact .committed table lake (by rw [present]; rfl)
  | remove table =>
      rcases Option.map_eq_some_iff.mp taken with ⟨entry, present, rfl⟩
      exact .removed table
  | loseMetadata table =>
      rcases Option.map_eq_some_iff.mp taken with ⟨entry, present, rfl⟩
      exact .lost table entry.location

theorem logged_step {event : Event φ} (logged : Logged history.catalogs history.log)
    (taken : step history event = some next) : Logged next.catalogs next.log := by
  rcases next with ⟨catalogs, runs, log⟩
  have effect : Effect history catalogs log := step_effect taken
  cases effect with
  | ensured target schema faults => exact logged_ensure logged target schema faults
  | unchanged => exact logged
  | bootstrapped key => exact logged.bootstrapped key
  | committed table lake present => exact logged.update (by rw [present]; rfl)
  | removed table => exact logged.remove rfl
  | lost table location => exact logged.update rfl

theorem logged_run {events : List (Event φ)} {last : History φ}
    (reached : run step History.start events = some last) : Logged last.catalogs last.log := by
  refine @run_invariant_always _ _ step (fun history : History φ => Logged history.catalogs history.log)
    (fun _ _ _ logged taken => logged_step logged taken) _ _ _ ?_ reached
  exact fun table => iff_of_false Bool.false_ne_true List.not_mem_nil

/-- The log is right to judge by locations: they are never used twice. -/
theorem consistent_step {event : Event φ} (consistent : forall table, (history.catalogs table).Consistent)
    (taken : step history event = some next) : forall table, (next.catalogs table).Consistent := by
  have update {table : String × String} {catalog : Catalog φ} (good : catalog.Consistent) :
      forall other, (Function.update history.catalogs table catalog other).Consistent := by
    intro other
    by_cases here : other = table
    · subst here
      rw [Function.update_self]
      exact good
    · rw [Function.update_of_ne here]
      exact consistent other
  rcases next with ⟨catalogs, runs, log⟩
  have effect : Effect history catalogs log := step_effect taken
  cases effect with
  | ensured target schema faults => exact update ((consistent _).createOrGet _ _)
  | unchanged => exact consistent
  | bootstrapped key => exact consistent
  | committed table lake present =>
      apply update
      intro entry swapped
      cases swapped
      exact Nat.lt_succ_self _
  | removed table =>
      apply update
      intro entry gone
      cases gone
  | lost table location => exact update (consistent table)

/-- In every history an empty note of a call means that the entry is the same. -/
theorem notes_eq_nil {events : List (Event φ)} {last : History φ}
    (reached : run step History.start events = some last) (table : String × String)
    (request : CreateTable.Request) (faults : Faults)
    (quiet : notes table (last.catalogs table) (createOrGet request faults (last.catalogs table)).1 = []) :
    (createOrGet request faults (last.catalogs table)).1.entry = (last.catalogs table).entry := by
  have consistent := @run_invariant_always _ _ step
    (fun history : History φ => forall table, (history.catalogs table).Consistent)
    (fun _ _ _ consistent taken => consistent_step consistent taken) _ _ _
    (by rintro table entry ⟨⟩) reached
  unfold notes at quiet
  cases before : (last.catalogs table).entry with
  | none =>
      cases after : (createOrGet request faults (last.catalogs table)).1.entry with
      | none => rfl
      | some new => simp [before, after] at quiet
  | some old =>
      cases after : (createOrGet request faults (last.catalogs table)).1.entry with
      | none => simp [before, after] at quiet
      | some new =>
          have same : old.location = new.location := by
            by_contra moved
            simp [before, after, moved] at quiet
          rw [entry_eq_of_location (consistent table) before after same]

/-! ## What the sensor emits -/

theorem targetsOf_isSome_iff {listed : List (Connection × Option (List TableConfig))} :
    (targetsOf listed).isSome = true ↔ forall entry, entry ∈ listed -> entry.2.isSome = true := by
  induction listed with
  | nil => simp [targetsOf]
  | cons entry rest ih =>
      rcases entry with ⟨conn, answer⟩
      cases answer with
      | none => simp [targetsOf]
      | some cfgs =>
          rw [targetsOf, Option.isSome_map, ih, List.forall_mem_cons]
          exact (and_iff_right rfl).symm

theorem mem_targetsOf {listed : List (Connection × Option (List TableConfig))} {targets : List Target}
    (found : targetsOf listed = some targets) {conn : Connection} {cfgs : List TableConfig}
    (member : (conn, some cfgs) ∈ listed) {cfg : TableConfig} (selected : cfg ∈ cfgs) :
    ({ conn := conn, cfg := cfg } : Target) ∈ targets := by
  induction listed generalizing targets with
  | nil => cases member
  | cons entry rest ih =>
      rcases entry with ⟨other, answer⟩
      cases answer with
      | none => cases found
      | some others =>
          rcases Option.map_eq_some_iff.mp found with ⟨later, rests, rfl⟩
          rcases List.mem_cons.mp member with same | inRest
          · cases same
            exact List.mem_append_left _ (List.mem_map.mpr ⟨cfg, selected, rfl⟩)
          · exact List.mem_append_right _ (ih rests inRest)

/-- A table cannot be loaded if it was not registered since it was last absent,
or is unreadable. -/
theorem missing_iff (logged : Logged history.catalogs history.log) :
    missing history.catalogs tick target = true ↔
      ¬ RegisteredSince history target ∨ Unreadable history tick target := by
  unfold missing Unreadable RegisteredSince
  rw [← logged target.table]
  cases fault : tick.load target.table with
  | some fault => simp [loadTable]
  | none =>
      cases present : (history.catalogs target.table).entry with
      | none => simp [loadTable, present]
      | some entry =>
          cases lost : (history.catalogs target.table).deleted.contains entry.location with
          | true =>
              simp only [loadTable, present, lost, if_true]
              exact iff_of_true trivial (Or.inr (Or.inr ⟨entry, rfl, lost⟩))
          | false =>
              have readable : entry.location ∉ (history.catalogs target.table).deleted := by
                simpa using lost
              simp only [loadTable, present, lost, Bool.false_eq_true, if_false]
              simp [readable]

theorem requested_iff_missing (listed : tick.Lists target) :
    Requested history tick target ↔
      (forall entry, entry ∈ tick.connections -> entry.2.isSome = true) ∧
        missing history.catalogs tick target = true := by
  rw [← targetsOf_isSome_iff]
  unfold Requested discoverNewTablesSensor Tick.targets requested
  unfold Tick.targets
  rcases listed with ⟨cfgs, member, selected⟩
  cases found : targetsOf tick.connections with
  | none => simp
  | some targets =>
      have inTargets : target ∈ targets := mem_targetsOf found member selected
      simp only [Option.getD_some, Option.isSome_some, true_and, List.mem_filter, inTargets]
      constructor
      · exact And.left
      · intro lacking
        refine ⟨lacking, ?_⟩
        have some : target ∈ targets.filter (missing history.catalogs tick) :=
          List.mem_filter.mpr ⟨inTargets, lacking⟩
        cases emitted : targets.filter (missing history.catalogs tick) with
        | nil =>
            rw [emitted] at some
            cases some
        | cons first rest => rfl

/-- An object that was not bootstrapped since its table was last absent is requested
exactly if every enabled connection can be listed and no run has registered the
table, or it cannot be read.  A run that failed after it had registered the table is
therefore not followed by another. -/
theorem unfinished_requested_iff (events : List (Event φ)) (last : History φ)
    (reached : run step History.start events = some last) (tick : Tick) (target : Target)
    (listed : tick.Lists target) :
    (¬ BootstrappedSince last target -> Requested last tick target) ↔
      BootstrappedSince last target ∨
        ((forall entry, entry ∈ tick.connections -> entry.2.isSome = true) ∧
          (¬ RegisteredSince last target ∨ Unreadable last tick target)) := by
  rw [requested_iff_missing listed, missing_iff (logged_run reached)]
  exact or_iff_not_imp_left.symm

def sampleTarget : Target :=
  { conn :=
      { id := 1, name := "sales", enabled := true, sourceDsn := "", awsAccessKey := none
        awsSecretKey := none, awsRegion := "us-east-1", lakeBucket := "lake", icebergNamespace := "sales"
        syncInclude := "", syncExclude := "", syncObjectTypes := "TABLE", syncSchemaBlacklist := "" }
    cfg := { schema := "public", table := "orders", partitionBy := [], watermarkColumn := some "updated_at"
             pk := "id", supportsParallelChunking := true } }

def sampleTick : Tick :=
  { connections := [(sampleTarget.conn, some [sampleTarget.cfg])], load := fun _ => none }

theorem sampleTick_lists : sampleTick.Lists sampleTarget :=
  ⟨[sampleTarget.cfg], List.mem_singleton.mpr rfl, List.mem_singleton.mpr rfl⟩

/-- `plan_bootstrap` creates the table and then fails to plan its chunks. -/
def failedPlan : Event String :=
  .plan sampleTarget ["id", "updated_at"] .none none

/-- No chunk was ever copied, and the sensor takes the object for bootstrapped. -/
theorem failed_plan_is_not_requested :
    Exists fun last : History String => run step History.start [failedPlan] = some last ∧
      sampleTick.Lists sampleTarget ∧ ¬ BootstrappedSince last sampleTarget ∧
      discoverNewTablesSensor last.catalogs sampleTick = .skip "all selected objects already bootstrapped" ∧
      ¬ Requested last sampleTick sampleTarget := by
  refine ⟨_, rfl, sampleTick_lists, by unfold BootstrappedSince; decide, rfl, fun requested => ?_⟩
  cases requested.1

/-- Once the table is gone again, the object is requested. -/
theorem removed_table_is_requested :
    Exists fun last : History String =>
      run step History.start [failedPlan, .remove sampleTarget.table] = some last ∧
        (¬ BootstrappedSince last sampleTarget -> Requested last sampleTick sampleTarget) := by
  refine ⟨_, rfl, ?_⟩
  refine (unfinished_requested_iff [failedPlan, .remove sampleTarget.table] _ rfl sampleTick sampleTarget
    sampleTick_lists).mpr (Or.inr ⟨?_, Or.inl ?_⟩)
  · intro entry member
    rw [List.mem_singleton.mp member]
    rfl
  · unfold RegisteredSince
    decide

end NewTables
end WarehouseSync

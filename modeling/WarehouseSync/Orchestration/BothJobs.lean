import WarehouseSync.Load.ReconcilePass
import WarehouseSync.Orchestration.SteadyState

namespace WarehouseSync
namespace Convergence

open CopyWorker Incremental KeyedRows Merge TableSync Transition

/-!
# Ticks and reconcile passes on one table

Incremental ticks bring new versions and cannot see deletes; a reconcile pass
compares ids and cannot see updates.  Here the two work on one table, one job at
a time, while the source commits between any two of their steps and a job may
fail at each of them.

What a pass carries out later goes back to a read of the source.  It deletes
ids that the source did not have then, and merges rows that it had; what was
committed since lies above the stored watermark, so the next tick brings it.
-/

variable {δ : Type}

/-- What a pass looks at; ids are integers and rows are stored as they are.  So the
two tables can be compared row by row. -/
def reconcileColumns : Reconcile.Columns (Version δ) (Version δ) Int :=
  { source := { id := Version.key, timestamp := fun _ _ _ => none }
    updatedAt := some Version.updatedAt
    align := id
    lakeId := Version.key
    lakeId_align := fun _ => rfl }

/-- A table with its incremental job, and the reconcile pass over it, of which there
is one at a time. -/
structure Warehouse (δ : Type) where
  sync : World δ
  phase : Reconcile.Phase (Version δ)

/-- The two tables as the pass sees them.  There are no windows in it, since the
rows of the ticks are in the state of the ticks. -/
def passWorld (world : World δ) (lake : List (Version δ)) (phase : Reconcile.Phase (Version δ)) :
    Reconcile.World (Version δ) (Version δ) :=
  { source := world.source, lake := lake, windows := [], phase := phase }

/-- One step of either job or of the source, in any order; nothing in the code keeps
a tick and a pass apart. -/
inductive Event (δ : Type) where
  | sync (event : TableSync.Event δ)
  | beginPass
  | pass (event : Reconcile.PassEvent)
deriving DecidableEq

/-- No pass is under way: the last one has finished or has failed.  Only then may
the next one begin. -/
def idle : Reconcile.Phase (Version δ) -> Bool
  | .finished => true
  | .failed => true
  | _ => false

/-- A pass loads the table first, and fails when there is none.  Its steps are those
of the reconcile model over the tables as they are at that moment, so the results
about single steps apply here as well. -/
def step (pipe : Pipeline δ) (sizes : Reconcile.BatchSizes) (target : Reconcile.Target)
    (warehouse : Warehouse δ) : Event δ -> Option (Warehouse δ)
  | .sync event => (TableSync.step pipe warehouse.sync event).map (fun world => { warehouse with sync := world })
  | .beginPass => if idle warehouse.phase = true then some { warehouse with phase := .waiting } else none
  | .pass event =>
      match warehouse.sync.table with
      | none => if idle warehouse.phase = true then none else some { warehouse with phase := .failed }
      | some lake =>
          (Reconcile.stepPass reconcileColumns sizes target (passWorld warehouse.sync lake warehouse.phase)
            event).map (fun after =>
              { sync := { warehouse.sync with table := some after.lake }, phase := after.phase })

variable {pipe : Pipeline δ} {sizes : Reconcile.BatchSizes} {target : Reconcile.Target}
  {warehouse next : Warehouse δ}

theorem step_sync {event : TableSync.Event δ}
    (taken : step pipe sizes target warehouse (.sync event) = some next) :
    Exists fun world : World δ => TableSync.step pipe warehouse.sync event = some world ∧
      next = { warehouse with sync := world } := by
  rcases Option.map_eq_some_iff.mp taken with ⟨world, moved, rfl⟩
  exact ⟨world, moved, rfl⟩

theorem step_beginPass (taken : step pipe sizes target warehouse .beginPass = some next) :
    idle warehouse.phase = true ∧ next = { warehouse with phase := .waiting } := by
  simp only [step] at taken
  split at taken
  · rename_i rests
    cases taken
    exact ⟨rests, rfl⟩
  · cases taken

/-- A step of the pass fails for want of a table, or is one on the table. -/
theorem step_pass {event : Reconcile.PassEvent}
    (taken : step pipe sizes target warehouse (.pass event) = some next) :
    (warehouse.sync.table = none ∧ next = { warehouse with phase := .failed }) ∨
    Exists fun lake : List (Version δ) => Exists fun after : Reconcile.World (Version δ) (Version δ) =>
      warehouse.sync.table = some lake ∧
        Reconcile.stepPass reconcileColumns sizes target (passWorld warehouse.sync lake warehouse.phase)
          event = some after ∧
        next = { sync := { warehouse.sync with table := some after.lake }, phase := after.phase } := by
  simp only [step] at taken
  split at taken
  · rename_i missing
    split at taken
    · cases taken
    · cases taken
      exact Or.inl ⟨missing, rfl⟩
  · rename_i lake present
    rcases Option.map_eq_some_iff.mp taken with ⟨after, moved, rfl⟩
    exact Or.inr ⟨lake, after, present, moved, rfl⟩

/-! ## What the pass does to the lake -/

/-- Merging a part of a pass is merging a batch. -/
theorem upsert_writtenRows (lake rows : List (Version δ)) :
    upsert Version.key lake (writtenRows reconcileColumns.staged reconcileColumns.align rows) =
      mergeInto lake rows := by
  have written : writtenRows reconcileColumns.staged reconcileColumns.align rows =
      dedupeLatest Version.key Version.updatedAt rows := by
    simp [writtenRows, StagedColumns.dedupe, Reconcile.Columns.staged, reconcileColumns]
  rw [written]
  by_cases empty : rows.length = 0
  · rw [List.length_eq_zero_iff.mp empty]
    rfl
  · exact (mergeInto_eq lake rows empty).symm

/-- What a batch of deletes leaves. -/
theorem mem_delete {lake : List (Version δ)} {doomed : List Int} {version : Version δ} :
    version ∈ delete Version.key doomed lake ↔ version ∈ lake ∧ version.id ∉ doomed := by
  have here : version ∈ delete Version.key doomed lake ↔
      version ∈ rowsAt Version.key (some version.id) (delete Version.key doomed lake) := by
    rw [mem_rowsAt]
    exact ⟨fun member => ⟨member, rfl⟩, And.left⟩
  rw [here, rowsAt_delete_some]
  split
  · rename_i listed
    simp [listed]
  · rename_i unlisted
    rw [mem_rowsAt]
    exact ⟨fun parts => ⟨parts.1, unlisted⟩, fun parts => ⟨parts.1, rfl⟩⟩

theorem mem_literals_iff {chunk : List (Option Int)} {number : Int} :
    number ∈ chunk.filterMap (fun id => id) ↔ some number ∈ chunk :=
  Reconcile.mem_literals

/-- The rows that a pass extracts are source rows, each once. -/
theorem extractMissing_sublist (source : List (Version δ)) (index : Nat) (ids : List Int) :
    (fileRows (Reconcile.extractMissing reconcileColumns target source index ids).files).Sublist source := by
  unfold Reconcile.extractMissing
  rw [fileRows_extractChunkToS3]
  exact List.filter_sublist.trans List.filter_sublist

/-- A job begins when no other is under way, and versions become visible in time.
These are conditions on the state before the step, and the code checks none of them.
-/
def OneJob (pipe : Pipeline δ) (warehouse : Warehouse δ) : Event δ -> Prop
  | .sync .beginTick => warehouse.sync.ticks = [] ∧ idle warehouse.phase = true
  | .sync event => Steady pipe warehouse.sync event
  | .beginPass => warehouse.sync.ticks = []
  | .pass _ => True

instance decidableOneJob (pipe : Pipeline δ) (warehouse : Warehouse δ) :
    forall event : Event δ, Decidable (OneJob pipe warehouse event)
  | .sync .beginTick => inferInstanceAs (Decidable (warehouse.sync.ticks = [] ∧ idle warehouse.phase = true))
  | .sync (.source event) => decidableSteady pipe warehouse.sync (.source event)
  | .sync (.boot event) => decidableSteady pipe warehouse.sync (.boot event)
  | .sync (.tick index event) => decidableSteady pipe warehouse.sync (.tick index event)
  | .beginPass => inferInstanceAs (Decidable (warehouse.sync.ticks = []))
  | .pass _ => isTrue trivial

/-- What was read of the source covers its commits up to this one.  What came later
is above the stored mark, so the next tick reads it whatever the pass does. -/
structure ReadAsOf (overlap : Int) (world : World δ) (asOf : Nat) : Prop where
  asOf_le : asOf ≤ world.commits
  after : forall tick, tick ∈ world.finished -> tick.asOf ≤ asOf
  late : forall version, version ∈ world.source -> asOf ≤ version.commit -> Late overlap world.mark version

/-- The deletes that are left are of ids that the source did not have, and the rows
that are left to merge are those it had.  Both are about the source as it was read,
which may have moved on. -/
def PassInvariant (overlap : Int) (world : World δ) : Reconcile.Phase (Version δ) -> Prop
  | .deleting _ sourceIds pending => Exists fun asOf : Nat => ReadAsOf overlap world asOf ∧
      (forall version, version ∈ world.source -> version.commit < asOf -> some version.id ∈ sourceIds) ∧
      forall chunk, chunk ∈ pending -> forall id, id ∈ chunk -> id ∉ sourceIds
  | .merging files _ => Exists fun asOf : Nat => ReadAsOf overlap world asOf ∧
      UniqueKeys Version.key (fileRows files) ∧
      forall other, other ∈ fileRows files -> forall version, version ∈ world.source ->
        version.id = other.id -> version.commit < asOf -> version = other
  | _ => True

/-- What holds in every state of a run with one job at a time: the invariant of the
ticks, that of the pass, and that no id is twice in the lake. -/
structure JobsInvariant (overlap slack : Int) (warehouse : Warehouse δ) : Prop where
  sync : SyncInvariant overlap slack warehouse.sync
  pass : PassInvariant overlap warehouse.sync warehouse.phase
  alone : warehouse.sync.ticks = [] ∨ idle warehouse.phase = true
  once : UniqueKeys Version.key warehouse.sync.lake

theorem passInvariant_of_idle {phase : Reconcile.Phase (Version δ)} (rests : idle phase = true)
    (overlap : Int) (world : World δ) : PassInvariant overlap world phase := by
  cases phase with
  | finished => trivial
  | failed => trivial
  | _ => cases rests

/-- A pass that is not under way takes no step. -/
theorem busy_of_stepPass {world after : Reconcile.World (Version δ) (Version δ)} {event : Reconcile.PassEvent}
    (taken : Reconcile.stepPass reconcileColumns sizes target world event = some after) :
    idle world.phase = false := by
  cases phase : world.phase with
  | finished =>
      cases event with
      | _ => simp only [Reconcile.stepPass, phase, reduceCtorEq] at taken
  | failed =>
      cases event with
      | _ => simp only [Reconcile.stepPass, phase, reduceCtorEq] at taken
  | _ => rfl

/-- The steps that move no rows, with the phase that they leave. -/
theorem phase_of_stepPass {world after : Reconcile.World (Version δ) (Version δ)} {event : Reconcile.PassEvent}
    (taken : Reconcile.stepPass reconcileColumns sizes target world event = some after) :
    (event = .endDeletes -> Exists fun lakeIds => Exists fun sourceIds =>
      world.phase = .deleting lakeIds sourceIds []) ∧
    (event = .extract -> Exists fun pending => world.phase = .adding pending) ∧
    (event = .nextBatch -> Exists fun pending => world.phase = .merging [] pending) ∧
    (event = .finish -> world.phase = .adding []) := by
  refine ⟨?_, ?_, ?_, ?_⟩
  · rintro rfl
    simp only [Reconcile.stepPass] at taken
    split at taken
    · rename_i lakeIds sourceIds deleting
      exact ⟨lakeIds, sourceIds, deleting⟩
    · cases taken
  · rintro rfl
    simp only [Reconcile.stepPass] at taken
    split at taken
    · rename_i batch index pending adding
      exact ⟨_, adding⟩
    · cases taken
  · rintro rfl
    simp only [Reconcile.stepPass] at taken
    split at taken
    · rename_i pending merging
      exact ⟨pending, merging⟩
    · cases taken
  · rintro rfl
    simp only [Reconcile.stepPass] at taken
    split at taken
    · rename_i adding
      exact adding
    · cases taken

section Busy

variable {overlap slack : Int} {world : World δ} {asOf : Nat}

theorem sync_of_idle (inv : IdleInvariant overlap slack world) (none : world.ticks = []) :
    SyncInvariant overlap slack world := by
  refine ⟨inv.source, inv.covered, inv.lags, inv.logged, ?_, ?_⟩
  · rw [none]
    exact List.forall_mem_nil _
  · rw [none]
    exact Nat.zero_le 1

theorem readAsOf_now (inv : SyncInvariant overlap slack world) : ReadAsOf overlap world world.commits where
  asOf_le := le_refl _
  after := fun tick member => (inv.logged tick member).1
  late := fun version member unseen => absurd (inv.source.numbered version member) (not_lt_of_ge unseen)

/-- A change of the table that keeps what the source had when it was read. -/
theorem replaceTable (inv : IdleInvariant overlap slack world) (read : ReadAsOf overlap world asOf)
    {lake : List (Version δ)} (kept : forall version, version ∈ world.source -> version.commit < asOf ->
      version ∈ world.lake -> version ∈ lake) :
    IdleInvariant overlap slack { world with table := some lake } := by
  refine ⟨inv.source.congr rfl rfl rfl rfl, ?_, inv.lags, ?_⟩
  · intro version member
    by_cases seen : version.commit < asOf
    · exact (inv.covered version member).imp_left (kept version member seen)
    · exact Or.inr (read.late version member (not_lt.mp seen)).above
  · intro tick member
    refine ⟨(inv.logged tick member).1, fun version present visible below => ?_⟩
    have seen := lt_of_lt_of_le visible (read.after tick member)
    exact kept version present seen ((inv.logged tick member).2 version present visible below)

/-- The source loses rows, or time passes. -/
theorem ReadAsOf.shrink (read : ReadAsOf overlap world asOf) {after : World δ}
    (rows : forall version, version ∈ after.source -> version ∈ world.source)
    (commits : world.commits ≤ after.commits) (watermark : after.watermark = world.watermark)
    (finished : after.finished = world.finished) : ReadAsOf overlap after asOf := by
  refine ⟨le_trans read.asOf_le commits, ?_, ?_⟩
  · rw [finished]
    exact read.after
  · have mark : after.mark = world.mark := by
      unfold World.mark
      rw [watermark]
    rw [mark]
    exact fun version member => read.late version (rows version member)

/-- Deletes at the source and the passing of time leave a pass as it is. -/
theorem PassInvariant.shrink {phase : Reconcile.Phase (Version δ)} (inv : PassInvariant overlap world phase)
    {after : World δ} (rows : forall version, version ∈ after.source -> version ∈ world.source)
    (commits : world.commits ≤ after.commits) (watermark : after.watermark = world.watermark)
    (finished : after.finished = world.finished) : PassInvariant overlap after phase := by
  cases phase with
  | deleting lakeIds sourceIds pending =>
      rcases inv with ⟨asOf, read, known, dead⟩
      exact ⟨asOf, read.shrink rows commits watermark finished,
        fun version member => known version (rows version member), dead⟩
  | merging files pending =>
      rcases inv with ⟨asOf, read, once, agree⟩
      exact ⟨asOf, read.shrink rows commits watermark finished, once,
        fun other listed version member => agree other listed version (rows version member)⟩
  | _ => trivial

/-- So does a new version, which the pass has not read. -/
theorem PassInvariant.insert {phase : Reconcile.Phase (Version δ)} (inv : PassInvariant overlap world phase)
    {version : Version δ} (number : world.commits ≤ version.commit) (late : Late overlap world.mark version) :
    PassInvariant overlap { world with source := world.source ++ [version] } phase := by
  have grown {asOf : Nat} (read : ReadAsOf overlap world asOf) :
      ReadAsOf overlap { world with source := world.source ++ [version] } asOf := by
    refine ⟨read.asOf_le, read.after, fun other member unseen => ?_⟩
    rcases List.mem_append.mp member with old | new
    · exact read.late other old unseen
    · rw [List.mem_singleton.mp new]
      exact late
  have old {asOf : Nat} (read : ReadAsOf overlap world asOf) {other : Version δ}
      (member : other ∈ world.source ++ [version]) (seen : other.commit < asOf) : other ∈ world.source := by
    rcases List.mem_append.mp member with before | new
    · exact before
    · rw [List.mem_singleton.mp new] at seen
      exact absurd (lt_of_lt_of_le seen (le_trans read.asOf_le number)) (lt_irrefl _)
  cases phase with
  | deleting lakeIds sourceIds pending =>
      rcases inv with ⟨asOf, read, known, dead⟩
      exact ⟨asOf, grown read, fun other member seen => known other (old read member seen) seen, dead⟩
  | merging files pending =>
      rcases inv with ⟨asOf, read, once, agree⟩
      exact ⟨asOf, grown read, once, fun listed inFiles other member same seen =>
        agree listed inFiles other (old read member seen) same seen⟩
  | _ => trivial

/-- A pass that goes on from what it has read. -/
theorem JobsInvariant.onward (inv : JobsInvariant overlap slack warehouse) (alone : warehouse.sync.ticks = [])
    {lake : List (Version δ)} {phase : Reconcile.Phase (Version δ)} (read : ReadAsOf overlap warehouse.sync asOf)
    (kept : forall version, version ∈ warehouse.sync.source -> version.commit < asOf ->
      version ∈ warehouse.sync.lake -> version ∈ lake)
    (once : UniqueKeys Version.key lake) (pass : PassInvariant overlap warehouse.sync phase) :
    JobsInvariant overlap slack { sync := { warehouse.sync with table := some lake }, phase := phase } where
  sync := sync_of_idle (replaceTable inv.sync.idle read kept) alone
  pass := pass.shrink (fun _ member => member) (le_refl _) rfl rfl
  alone := Or.inl alone
  once := once

/-- Every step of a pass keeps the invariant. -/
theorem JobsInvariant.passStep (inv : JobsInvariant overlap slack warehouse) {event : Reconcile.PassEvent}
    (taken : step pipe sizes target warehouse (.pass event) = some next) :
    JobsInvariant overlap slack next := by
  rcases step_pass taken with ⟨missing, rfl⟩ | ⟨lake, after, present, moved, rfl⟩
  · exact ⟨inv.sync, trivial, Or.inr rfl, inv.once⟩
  · have alone : warehouse.sync.ticks = [] := by
      apply inv.alone.resolve_right
      rw [show idle warehouse.phase = false from busy_of_stepPass moved]
      exact Bool.false_ne_true
    have now := readAsOf_now inv.sync
    have same : warehouse.sync.lake = lake := World.lake_eq present
    have once := inv.once
    have pass := inv.pass
    rw [same] at once
    have still {version : Version δ} (member : version ∈ warehouse.sync.lake) : version ∈ lake := same ▸ member
    cases Reconcile.passEffect_of_stepPass moved with
    | scan waiting => exact inv.onward alone now (fun _ _ _ => still) once trivial
    | @query lakeIds scanned =>
        refine inv.onward alone now (fun _ _ _ => still) once ⟨_, now, ?_, ?_⟩
        · exact fun version member _ => List.mem_map_of_mem member
        · intro chunk planned id listed
          exact (Reconcile.mem_deletedIds.mp (Reconcile.mem_deletePlan planned listed)).2
    | @delete lakeIds sourceIds chunk pending deleting numbered =>
        have phase : warehouse.phase = .deleting lakeIds sourceIds (chunk :: pending) := deleting
        rw [phase] at pass
        rcases pass with ⟨asOf, read, known, dead⟩
        refine inv.onward alone read ?_ (once.sublist List.filter_sublist)
          ⟨asOf, read, known, fun other listed => dead other (List.mem_cons_of_mem _ listed)⟩
        intro version member seen held
        refine mem_delete.mpr ⟨still held, fun doomed => ?_⟩
        exact dead chunk List.mem_cons_self _ (mem_literals_iff.mp doomed) (known version member seen)
    | endDeletes => exact inv.onward alone now (fun _ _ _ => still) once trivial
    | @extract index ids pending =>
        refine inv.onward alone now (fun _ _ _ => still) once ⟨_, now, ?_, ?_⟩
        · exact inv.sync.source.once.sublist (extractMissing_sublist _ _ _)
        · intro other listed version member same _
          have there := (extractMissing_sublist _ _ _).subset listed
          exact inv.sync.source.once.eq_of_key member there (congrArg some same) rfl
    | @merge file files pending merging =>
        have phase : warehouse.phase = .merging (file :: files) pending := merging
        rw [phase] at pass
        rcases pass with ⟨asOf, read, alike, agree⟩
        have parts := uniqueKeys_append.mp alike
        have merged : upsert reconcileColumns.lakeId lake
            (writtenRows reconcileColumns.staged reconcileColumns.align file.rows) = mergeInto lake file.rows :=
          upsert_writtenRows lake file.rows
        dsimp only [passWorld]
        rw [merged]
        refine inv.onward alone read ?_ (uniqueKeys_mergeInto once file.rows)
          ⟨asOf, read, parts.2.1, fun other listed => agree other (List.mem_append_right _ listed)⟩
        intro version member seen held
        apply mem_mergeInto_of_agree parts.1 _ (Or.inl (still held))
        intro other listed same
        exact agree other (List.mem_append_left _ listed) version member same seen
    | nextBatch => exact inv.onward alone now (fun _ _ _ => still) once trivial
    | finish => exact inv.onward alone now (fun _ _ _ => still) once trivial
    | fail => exact inv.onward alone now (fun _ _ _ => still) once trivial

/-- A tick leaves no id twice. -/
theorem uniqueKeys_tick {index : Nat} {event : TickEvent} {after : World δ}
    (once : UniqueKeys Version.key world.lake) (taken : TableSync.step pipe world (.tick index event) = some after) :
    UniqueKeys Version.key after.lake ∧ world.ticks ≠ [] := by
  rcases Option.bind_eq_some_iff.mp taken with ⟨tick, running, stepped⟩
  rcases Option.map_eq_some_iff.mp stepped with ⟨next, moved, rfl⟩
  refine ⟨?_, fun none => by rw [none] at running; cases running⟩
  rcases stepTick_cases moved with ⟨found, rfl, rfl⟩ | ⟨rfl, rfl⟩ | ⟨now, wm, rfl, rfl⟩ |
    ⟨window, batch, rest, lake, rfl, pending, present, rfl⟩ | ⟨window, rfl, pending, rfl⟩ | rfl
  · rcases createTable_eq world found with ⟨table, same | empty, created⟩
    · rw [created, same]
      exact once
    · rw [created, empty]
      exact List.nodup_nil
  · exact once
  · exact once
  · rw [World.lake_eq present] at once
    exact uniqueKeys_mergeInto once batch
  · exact once
  · exact once

/-- Every step of a run with one job at a time keeps the invariant. -/
theorem JobsInvariant.step (positive : 0 < pipe.settings.overlap) (room : Room pipe.settings slack pipe.kind)
    (late : lateness pipe = slack + pipe.settings.overlap) (warehouse : Warehouse δ) (event : Event δ)
    (next : Warehouse δ) (inv : JobsInvariant pipe.settings.overlap slack warehouse)
    (allowed : OneJob pipe warehouse event) (taken : Convergence.step pipe sizes target warehouse event = some next) :
    JobsInvariant pipe.settings.overlap slack next := by
  cases event with
  | beginPass =>
      rcases step_beginPass taken with ⟨rests, rfl⟩
      exact ⟨inv.sync, trivial, Or.inl allowed, inv.once⟩
  | pass event => exact inv.passStep taken
  | sync event =>
      rcases step_sync taken with ⟨after, moved, rfl⟩
      cases event with
      | boot event => exact allowed.elim
      | beginTick =>
          refine ⟨inv.sync.beginTick allowed.1 moved, passInvariant_of_idle allowed.2 _ _, Or.inr allowed.2, ?_⟩
          cases moved
          exact inv.once
      | tick index event =>
          rcases uniqueKeys_tick inv.once moved with ⟨once, running⟩
          have rests := inv.alone.resolve_left running
          exact ⟨inv.sync.stepTick positive room moved, passInvariant_of_idle rests _ _, Or.inr rests, once⟩
      | source event =>
          have sync := SyncInvariant.steady positive room late _ _ _ inv.sync allowed moved
          rcases stepSource_cases moved with ⟨clock, rfl, later, rfl⟩ | ⟨id, updatedAt, data, rfl, rfl⟩ |
            ⟨id, rfl, rfl⟩
          · exact ⟨sync, inv.pass.shrink (fun _ member => member) (le_refl _) rfl rfl, inv.alone, inv.once⟩
          · refine ⟨sync, ?_, inv.alone, inv.once⟩
            rcases allowed with ⟨value, carries, positiveValue, before, inTime, unseen⟩
            have admitted : Admitted pipe.settings.overlap slack warehouse.sync updatedAt :=
              ⟨value, carries, by omega, before, by omega⟩
            let world := warehouse.sync
            let version : Version δ := { id := id, updatedAt := updatedAt, commit := world.commits, data := data }
            let rows := world.source.filter (fun version => decide (version.id ≠ id))
            have shrunk : PassInvariant pipe.settings.overlap { world with source := rows } warehouse.phase :=
              inv.pass.shrink (fun _ member => List.mem_of_mem_filter member) (le_refl _) rfl rfl
            have late : Late pipe.settings.overlap world.mark version := inv.sync.lags.late positive admitted
            have grown := shrunk.insert (le_refl _) late
            exact grown.shrink (fun _ member => member) (Nat.le_succ _) rfl rfl
          · exact ⟨sync, inv.pass.shrink (fun _ member => List.mem_of_mem_filter member) (Nat.le_succ _) rfl rfl,
              inv.alone, inv.once⟩

end Busy

end Convergence
end WarehouseSync

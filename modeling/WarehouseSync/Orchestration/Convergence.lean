import WarehouseSync.Orchestration.BothJobs

namespace WarehouseSync
namespace Convergence

open CopyWorker Incremental KeyedRows Merge TableSync Transition

/-!
# The lake becomes equal to the source

Once the source is quiet, a tick that reads past its last version and a
reconcile pass after it leave exactly the source rows in the lake, and whatever
the two jobs do afterwards leaves them so.
-/

variable {δ : Type} {pipe : Pipeline δ} {sizes : Reconcile.BatchSizes} {target : Reconcile.Target}
  {warehouse next : Warehouse δ}

/-- The source commits nothing more.  The jobs run as they like, at the same time
too, and only a bootstrap is left out, since it would load the table again. -/
def Quiet : Event δ -> Prop
  | .sync (.source (.advanceClock _)) => True
  | .sync (.source _) => False
  | .sync (.boot _) => False
  | _ => True

instance decidableQuiet : forall event : Event δ, Decidable (Quiet event)
  | .sync (.source (.advanceClock _)) => isTrue trivial
  | .sync (.source (.write _ _ _)) => isFalse (fun quiet => quiet)
  | .sync (.source (.delete _)) => isFalse (fun quiet => quiet)
  | .sync (.boot _) => isFalse (fun quiet => quiet)
  | .sync .beginTick => isTrue trivial
  | .sync (.tick _ _) => isTrue trivial
  | .beginPass => isTrue trivial
  | .pass _ => isTrue trivial

/-- The lake has every source row, and no id twice.  It may have further rows, of
ids that the source has deleted: those are for the pass to remove. -/
structure Complete (source lake : List (Version δ)) : Prop where
  sourceOnce : UniqueKeys Version.key source
  lakeOnce : UniqueKeys Version.key lake
  holds : forall version, version ∈ source -> version ∈ lake

/-- A lake row of an id that the source does not have.  No tick ever removes it,
because a window has nothing to say about deleted rows. -/
def Dead (source lake : List (Version δ)) (version : Version δ) : Prop :=
  version ∈ lake ∧ some version.id ∉ source.map Version.key

/-- What a tick has read is source rows, and the table it may create is empty.  A
tick that was overtaken by the last commit does not fit, which is why a quiet run
begins after one that has seen all. -/
def TickFits (source : List (Version δ)) : Tick δ -> Prop
  | .loaded found => found = true ∨ source = []
  | .merging window => forall version, version ∈ window.pending.flatten -> version ∈ source
  | _ => True

/-- Between its two reads and its last delete a pass knows all dead rows.  No new
ones appear in a quiet run, so once they are deleted there are none. -/
def PhaseFits (source lake : List (Version δ)) : Reconcile.Phase (Version δ) -> Prop
  | .scanned lakeIds => forall version, Dead source lake version -> some version.id ∈ lakeIds
  | .deleting _ sourceIds pending => sourceIds = source.map Version.key ∧
      (forall chunk, chunk ∈ pending -> forall id, id ∈ chunk -> id ∉ sourceIds) ∧
      forall version, Dead source lake version -> some version.id ∈ pending.flatten
  | .adding _ => forall version, ¬ Dead source lake version
  | .merging files _ => (forall version, ¬ Dead source lake version) ∧
      forall version, version ∈ fileRows files -> version ∈ source
  | _ => True

/-- What holds in every state of a quiet run.  It has a part for each job, and each
part is kept by the steps of the other. -/
structure QuietInvariant (warehouse : Warehouse δ) : Prop where
  complete : Complete warehouse.sync.source warehouse.sync.lake
  ticks : forall tick, tick ∈ warehouse.sync.ticks -> TickFits warehouse.sync.source tick
  phase : PhaseFits warehouse.sync.source warehouse.sync.lake warehouse.phase

section Quiet

variable {source lake : List (Version δ)}

/-- The lake only takes source rows, and keeps those it has.  Ticks and the
additions of a pass both have this effect, so it is proved of a merge and used for
both. -/
structure Refreshed (source before after : List (Version δ)) : Prop where
  complete : Complete source after
  origin : forall version, version ∈ after -> version ∈ before ∨ version ∈ source

theorem Complete.refreshed (complete : Complete source lake) : Refreshed source lake lake :=
  ⟨complete, fun _ member => Or.inl member⟩

theorem Refreshed.dead {after : List (Version δ)} (refreshed : Refreshed source lake after)
    {version : Version δ} (dead : Dead source after version) : Dead source lake version := by
  refine ⟨(refreshed.origin version dead.1).resolve_right (fun present => ?_), dead.2⟩
  exact dead.2 (List.mem_map_of_mem present)

theorem PhaseFits.refreshed {phase : Reconcile.Phase (Version δ)} (fits : PhaseFits source lake phase)
    {after : List (Version δ)} (refreshed : Refreshed source lake after) : PhaseFits source after phase := by
  cases phase with
  | scanned lakeIds => exact fun version dead => fits version (refreshed.dead dead)
  | deleting lakeIds sourceIds pending =>
      exact ⟨fits.1, fits.2.1, fun version dead => fits.2.2 version (refreshed.dead dead)⟩
  | adding pending => exact fun version dead => fits version (refreshed.dead dead)
  | merging files pending => exact ⟨fun version dead => fits.1 version (refreshed.dead dead), fits.2⟩
  | _ => trivial

/-- What a merge leaves comes from the lake or from the batch. -/
theorem mem_of_mem_mergeInto {batch : List (Version δ)} {version : Version δ}
    (member : version ∈ mergeInto lake batch) : version ∈ lake ∨ version ∈ batch := by
  by_cases empty : batch.length = 0
  · unfold mergeInto mergeBatch at member
    rw [if_pos empty] at member
    exact Or.inl member
  · rw [mergeInto_eq lake batch empty] at member
    have here : version ∈ rowsAt Version.key (some version.id)
        (upsert Version.key lake (dedupeLatest Version.key Version.updatedAt batch)) :=
      mem_rowsAt.mpr ⟨member, rfl⟩
    rw [rowsAt_upsert_some] at here
    split at here
    · exact Or.inr (mem_dedupeLatest (mem_rowsAt.mp here).1)
    · exact Or.inl (mem_rowsAt.mp here).1

/-- Merging current rows of the source. -/
theorem Complete.merge (complete : Complete source lake) {batch : List (Version δ)}
    (current : forall version, version ∈ batch -> version ∈ source) :
    Refreshed source lake (mergeInto lake batch) := by
  refine ⟨⟨complete.sourceOnce, uniqueKeys_mergeInto complete.lakeOnce batch, ?_⟩, ?_⟩
  · intro version present
    by_cases listed : Exists fun other : Version δ => other ∈ batch ∧ other.id = version.id
    · rcases listed with ⟨other, inBatch, same⟩
      have nonempty : batch.length ≠ 0 := by
        intro empty
        rw [List.length_eq_zero_iff.mp empty] at inBatch
        cases inBatch
      have listed : version.id ∈ keys Version.key (dedupeLatest Version.key Version.updatedAt batch) :=
        mem_keys_dedupeLatest.mpr (mem_keys.mpr ⟨other, inBatch, congrArg some same⟩)
      rcases mem_keys.mp listed with ⟨kept, inKept, carries⟩
      have known := current kept (mem_dedupeLatest inKept)
      have kept_eq : kept = version := complete.sourceOnce.eq_of_key known present carries rfl
      have here : version ∈ rowsAt Version.key (some version.id) (mergeInto lake batch) := by
        rw [mergeInto_eq lake batch nonempty, rowsAt_upsert_some, if_pos listed]
        exact mem_rowsAt.mpr ⟨kept_eq ▸ inKept, rfl⟩
      exact (mem_rowsAt.mp here).1
    · apply mem_mergeInto_of_absent (complete.holds version present)
      exact fun other inBatch same => listed ⟨other, inBatch, same⟩
  · exact fun version member => (mem_of_mem_mergeInto member).imp_right (current version)

/-- A batch of deletes that lists no id of the source. -/
theorem Complete.delete (complete : Complete source lake) {chunk : List (Option Int)}
    (dead : forall id, id ∈ chunk -> id ∉ source.map Version.key) :
    Refreshed source lake (KeyedRows.delete Version.key (chunk.filterMap (fun id => id)) lake) := by
  refine ⟨⟨complete.sourceOnce, complete.lakeOnce.sublist List.filter_sublist, ?_⟩, ?_⟩
  · intro version present
    refine mem_delete.mpr ⟨complete.holds version present, fun doomed => ?_⟩
    exact dead _ (mem_literals_iff.mp doomed) (List.mem_map_of_mem present)
  · exact fun version member => Or.inl (mem_delete.mp member).1

/-- Once no row is dead the two tables have the same rows. -/
theorem Complete.perm (complete : Complete source lake) (clean : forall version, ¬ Dead source lake version) :
    lake.Perm source := by
  have known (version : Version δ) (member : version ∈ lake) : version ∈ source := by
    by_contra missing
    apply clean version
    refine ⟨member, fun listed => missing ?_⟩
    rcases List.mem_map.mp listed with ⟨other, present, same⟩
    have held := complete.holds other present
    rw [← complete.lakeOnce.eq_of_key held member same rfl]
    exact present
  have unkeyed (rows : List (Version δ)) : rowsAt Version.key none rows = [] := by
    rw [rowsAt_eq_nil_iff, List.mem_map]
    rintro ⟨_, _, impossible⟩
    cases impossible
  have same (value : Option Int) : rowsAt Version.key value lake = rowsAt Version.key value source := by
    cases value with
    | none => rw [unkeyed, unkeyed]
    | some id =>
        apply complete.lakeOnce.rowsAt_congr complete.sourceOnce
        exact fun version _ => ⟨known version, complete.holds version⟩
  exact perm_of_rowsAt same

/-- What a step of a quiet run leaves: the source, and no dead row that was not
there before.  The last field is what makes the deletes of a pass final. -/
structure QuietStep (before after : Warehouse δ) : Prop where
  source : after.sync.source = before.sync.source
  inv : QuietInvariant after
  dead : forall version, Dead after.sync.source after.sync.lake version ->
    Dead before.sync.source before.sync.lake version

/-- A pass that goes on with a lake that only took source rows. -/
theorem QuietInvariant.onward (inv : QuietInvariant warehouse) {phase : Reconcile.Phase (Version δ)}
    (refreshed : Refreshed warehouse.sync.source warehouse.sync.lake lake)
    (fits : PhaseFits warehouse.sync.source lake phase) :
    QuietStep warehouse { sync := { warehouse.sync with table := some lake }, phase := phase } where
  source := rfl
  inv := ⟨refreshed.complete, inv.ticks, fits⟩
  dead := fun _ dead => refreshed.dead dead

theorem mem_flatten_deletePlan {lakeIds sourceIds : List (Option Int)} {id : Option Int} (scanned : id ∈ lakeIds)
    (absent : id ∉ sourceIds) : id ∈ (Reconcile.deletePlan sizes lakeIds sourceIds).flatten := by
  have nonempty : lakeIds.length ≠ 0 := List.length_pos_of_mem scanned |>.ne'
  unfold Reconcile.deletePlan
  rw [if_pos nonempty, Splitting.flatten_slices sizes.delete_pos]
  exact Reconcile.mem_deletedIds.mpr ⟨scanned, absent⟩

/-- Every step of the pass. -/
theorem QuietInvariant.passStep (inv : QuietInvariant warehouse) {event : Reconcile.PassEvent}
    (taken : step pipe sizes target warehouse (.pass event) = some next) :
    QuietStep warehouse next ∧
      (event = .finish -> forall version, ¬ Dead next.sync.source next.sync.lake version) := by
  rcases step_pass taken with ⟨missing, rfl⟩ | ⟨lake, after, present, moved, rfl⟩
  · refine ⟨⟨rfl, ⟨inv.complete, inv.ticks, trivial⟩, fun _ dead => dead⟩, ?_⟩
    rintro - version ⟨member, -⟩
    unfold World.lake at member
    rw [missing] at member
    cases member
  · have same : warehouse.sync.lake = lake := World.lake_eq present
    have complete := inv.complete
    have fits := inv.phase
    have still := complete.refreshed
    rw [same] at complete fits
    rw [same] at still
    rcases phase_of_stepPass moved with ⟨deleted, adding, merged, added⟩
    have onward {after : List (Version δ)} {phase : Reconcile.Phase (Version δ)}
        (refreshed : Refreshed warehouse.sync.source lake after)
        (fits : PhaseFits warehouse.sync.source after phase) :=
      inv.onward (same.symm ▸ refreshed) fits
    cases Reconcile.passEffect_of_stepPass moved with
    | scan waiting =>
        refine ⟨onward still ?_, nofun⟩
        exact fun version dead => List.mem_map_of_mem dead.1
    | @query lakeIds scanned =>
        have phase : warehouse.phase = .scanned lakeIds := scanned
        rw [phase] at fits
        refine ⟨onward still ⟨rfl, ?_, ?_⟩, nofun⟩
        · intro chunk planned id listed
          exact (Reconcile.mem_deletedIds.mp (Reconcile.mem_deletePlan planned listed)).2
        · exact fun version dead => mem_flatten_deletePlan (fits version dead) dead.2
    | @delete lakeIds sourceIds chunk pending deleting numbered =>
        have phase : warehouse.phase = .deleting lakeIds sourceIds (chunk :: pending) := deleting
        rw [phase] at fits
        rcases fits with ⟨read, absent, known⟩
        have refreshed := complete.delete (fun id listed => read ▸ absent chunk List.mem_cons_self id listed)
        refine ⟨onward refreshed ⟨read, fun other later => absent other (List.mem_cons_of_mem _ later), ?_⟩, nofun⟩
        intro version dead
        have listed := known version (refreshed.dead dead)
        rw [List.flatten_cons] at listed
        refine (List.mem_append.mp listed).resolve_left (fun here => ?_)
        exact (mem_delete.mp dead.1).2 (mem_literals_iff.mpr here)
    | endDeletes =>
        rcases deleted rfl with ⟨lakeIds, sourceIds, phase⟩
        change warehouse.phase = _ at phase
        rw [phase] at fits
        refine ⟨onward still ?_, nofun⟩
        exact fun version dead => List.not_mem_nil (fits.2.2 version dead)
    | @extract index ids pending =>
        rcases adding rfl with ⟨waiting, phase⟩
        change warehouse.phase = _ at phase
        rw [phase] at fits
        refine ⟨onward still ⟨fits, ?_⟩, nofun⟩
        exact fun version listed => (extractMissing_sublist _ _ _).subset listed
    | @merge file files pending merging =>
        have phase : warehouse.phase = .merging (file :: files) pending := merging
        rw [phase] at fits
        have written : upsert reconcileColumns.lakeId lake
            (writtenRows reconcileColumns.staged reconcileColumns.align file.rows) = mergeInto lake file.rows :=
          upsert_writtenRows lake file.rows
        dsimp only [passWorld]
        rw [written]
        have refreshed := complete.merge (fun version member => fits.2 version (List.mem_append_left _ member))
        refine ⟨onward refreshed ⟨fun version dead => fits.1 version (refreshed.dead dead), ?_⟩, nofun⟩
        exact fun version member => fits.2 version (List.mem_append_right _ member)
    | @nextBatch pending =>
        rcases merged rfl with ⟨waiting, phase⟩
        change warehouse.phase = _ at phase
        rw [phase] at fits
        exact ⟨onward still fits.1, nofun⟩
    | finish =>
        have phase := added rfl
        change warehouse.phase = _ at phase
        rw [phase] at fits
        exact ⟨onward still trivial, fun _ => fits⟩
    | fail => exact ⟨onward still trivial, nofun⟩

/-- Every step of a tick. -/
theorem QuietInvariant.tickStep (inv : QuietInvariant warehouse) {index : Nat} {event : TickEvent}
    {after : World δ} (taken : TableSync.step pipe warehouse.sync (.tick index event) = some after) :
    QuietStep warehouse { warehouse with sync := after } := by
  rcases Option.bind_eq_some_iff.mp taken with ⟨tick, found, stepped⟩
  rcases Option.map_eq_some_iff.mp stepped with ⟨next, moved, rfl⟩
  have member : tick ∈ warehouse.sync.ticks := List.mem_of_getElem? found
  have fits := inv.ticks tick member
  have still := inv.complete.refreshed
  have goesOn {world : World δ} (source : world.source = warehouse.sync.source)
      (ticks : forall other, other ∈ world.ticks ->
        other ∈ warehouse.sync.ticks ∨ TickFits warehouse.sync.source other)
      (refreshed : Refreshed warehouse.sync.source warehouse.sync.lake world.lake) :
      QuietStep warehouse { warehouse with sync := world } := by
    refine ⟨source, ⟨?_, ?_, ?_⟩, ?_⟩
    · exact source ▸ refreshed.complete
    · intro other listed
      rw [show world.source = _ from source]
      exact (ticks other listed).elim (inv.ticks other) (fun fits => fits)
    · rw [show world.source = _ from source]
      exact inv.phase.refreshed refreshed
    · rw [show world.source = _ from source]
      exact fun version dead => refreshed.dead dead
  have replaced {onward : Tick δ} (onwardFits : TickFits warehouse.sync.source onward) (other : Tick δ)
      (listed : other ∈ warehouse.sync.ticks.set index onward) :
      other ∈ warehouse.sync.ticks ∨ TickFits warehouse.sync.source other := by
    rcases List.mem_or_eq_of_mem_set listed with old | rfl
    · exact Or.inl old
    · exact Or.inr onwardFits
  have erased (other : Tick δ) (listed : other ∈ warehouse.sync.ticks.eraseIdx index) :
      other ∈ warehouse.sync.ticks ∨ TickFits warehouse.sync.source other :=
    Or.inl (List.mem_of_mem_eraseIdx listed)
  rcases stepTick_cases moved with ⟨found, rfl, rfl⟩ | ⟨rfl, rfl⟩ | ⟨now, wm, rfl, rfl⟩ |
    ⟨window, batch, rest, lake, rfl, pending, present, rfl⟩ | ⟨window, rfl, pending, rfl⟩ | rfl
  · unfold World.createTable
    split
    · exact goesOn rfl (replaced trivial) still
    · rename_i missing
      have empty : warehouse.sync.source = [] := fits.resolve_left missing
      refine goesOn rfl (replaced trivial) ⟨⟨inv.complete.sourceOnce, List.nodup_nil, ?_⟩, ?_⟩
      · rw [empty]
        exact List.forall_mem_nil _
      · exact List.forall_mem_nil _
  · exact goesOn rfl (replaced trivial) still
  · refine goesOn rfl (replaced ?_) still
    intro version listed
    have read : version ∈ (extractWindow pipe warehouse.sync now wm).pending.flatten := listed
    rw [show (extractWindow pipe warehouse.sync now wm).pending.flatten = _ from
      Splitting.flatten_batches _ _] at read
    rcases mem_runIncremental.mp read with ⟨_, _, present, _⟩
    exact present
  · have whole : window.pending.flatten = batch ++ rest.flatten := by
      rw [pending, List.flatten_cons]
    have current (version : Version δ) (listed : version ∈ batch) : version ∈ warehouse.sync.source :=
      fits version (whole ▸ List.mem_append_left _ listed)
    have refreshed := inv.complete.merge current
    refine goesOn rfl (replaced ?_) ?_
    · exact fun version listed => fits version (whole ▸ List.mem_append_right _ listed)
    · rw [World.lake_eq present] at refreshed ⊢
      exact refreshed
  · exact goesOn rfl erased still
  · exact goesOn rfl erased still

theorem QuietInvariant.step (inv : QuietInvariant warehouse) {event : Event δ} (quiet : Quiet event)
    (taken : Convergence.step pipe sizes target warehouse event = some next) : QuietStep warehouse next := by
  cases event with
  | beginPass =>
      rcases step_beginPass taken with ⟨rests, rfl⟩
      exact ⟨rfl, ⟨inv.complete, inv.ticks, trivial⟩, fun _ dead => dead⟩
  | pass event => exact (inv.passStep taken).1
  | sync event =>
      rcases step_sync taken with ⟨after, moved, rfl⟩
      cases event with
      | boot event => exact quiet.elim
      | tick index event => exact inv.tickStep moved
      | beginTick =>
          cases moved
          refine ⟨rfl, ⟨inv.complete, ?_, inv.phase⟩, fun _ dead => dead⟩
          intro tick listed
          rcases List.mem_append.mp listed with old | new
          · exact inv.ticks tick old
          · rw [List.mem_singleton.mp new]
            cases table : warehouse.sync.table with
            | some lake => exact Or.inl rfl
            | none =>
                refine Or.inr (List.eq_nil_iff_forall_not_mem.mpr (fun version present => ?_))
                have held := inv.complete.holds version present
                unfold World.lake at held
                rw [table] at held
                cases held
      | source event =>
          rcases stepSource_cases moved with ⟨clock, rfl, later, rfl⟩ | ⟨id, updatedAt, data, rfl, rfl⟩ |
            ⟨id, rfl, rfl⟩
          · exact ⟨rfl, ⟨inv.complete, inv.ticks, inv.phase⟩, fun _ dead => dead⟩
          · exact quiet.elim
          · exact quiet.elim

/-- A whole quiet run. -/
theorem QuietInvariant.run {events : List (Event δ)} (inv : QuietInvariant warehouse)
    (quiet : forall event, event ∈ events -> Quiet event)
    (reached : Transition.run (Convergence.step pipe sizes target) warehouse events = some next) :
    QuietStep warehouse next := by
  induction events generalizing warehouse with
  | nil =>
      cases reached
      exact ⟨rfl, inv, fun _ dead => dead⟩
  | cons event events ih =>
      rcases run_cons_eq_some.mp reached with ⟨middle, taken, rest⟩
      have once := inv.step (quiet event List.mem_cons_self) taken
      have later := ih once.inv (fun other member => quiet other (List.mem_cons_of_mem _ member)) rest
      exact ⟨later.source.trans once.source, later.inv,
        fun version dead => once.dead version (later.dead version dead)⟩

/-- After a pass has finished, no row is dead. -/
theorem QuietInvariant.finished {events : List (Event δ)} (inv : QuietInvariant warehouse)
    (quiet : forall event, event ∈ events -> Quiet event) (passed : .pass .finish ∈ events)
    (reached : Transition.run (Convergence.step pipe sizes target) warehouse events = some next) :
    next.sync.lake.Perm next.sync.source := by
  rcases List.append_of_mem passed with ⟨before, after, rfl⟩
  rcases run_append_eq_some.mp reached with ⟨middle, first, rest⟩
  rcases run_cons_eq_some.mp rest with ⟨settled, taken, onward⟩
  have start := inv.run (fun event member => quiet event (List.mem_append_left _ member)) first
  have pass := start.inv.passStep taken
  have later := pass.1.inv.run (fun event member => quiet event
    (List.mem_append_right _ (List.mem_cons_of_mem _ member))) onward
  apply later.inv.complete.perm
  exact fun version dead => pass.2 rfl version (later.dead version dead)

end Quiet

/-! ## The two together -/

/-- Nothing is running and no watermark is stored.  The lake may have rows already,
from a bootstrap whose seed was not stored, as long as no id is there twice. -/
structure Begins (warehouse : Warehouse δ) : Prop where
  sync : Starts warehouse.sync
  idle : idle warehouse.phase = true
  once : UniqueKeys Version.key warehouse.sync.lake

/-- No job runs, and some tick saw all of the source.  It also has to lie below the
bound of the window of that tick, which stays a safety gap behind the clock. -/
structure CaughtUp (warehouse : Warehouse δ) : Prop where
  ticks : warehouse.sync.ticks = []
  idle : idle warehouse.phase = true
  read : Exists fun tick : FinishedTick => tick ∈ warehouse.sync.finished ∧
    tick.asOf = warehouse.sync.commits ∧
      forall version, version ∈ warehouse.sync.source -> Below tick.hi version

theorem CaughtUp.quiet {overlap slack : Int} (caught : CaughtUp warehouse)
    (inv : JobsInvariant overlap slack warehouse) : QuietInvariant warehouse := by
  rcases caught.read with ⟨tick, member, recent, below⟩
  refine ⟨⟨inv.sync.source.once, inv.once, ?_⟩, ?_, ?_⟩
  · intro version present
    apply (inv.sync.logged tick member).2 version present _ (below version present)
    exact recent ▸ inv.sync.source.numbered version present
  · rw [caught.ticks]
    exact List.forall_mem_nil _
  · have rests := caught.idle
    cases phase : warehouse.phase with
    | finished => trivial
    | failed => trivial
    | _ => rw [phase] at rests; cases rests

/-- The overlap and the room that late commits have. -/
theorem exists_room (time : TimeKind pipe.kind) (overlap : 0 < pipe.settings.overlapSeconds) :
    0 < pipe.settings.overlap ∧ Exists fun slack : Int => Room pipe.settings slack pipe.kind ∧
      lateness pipe = slack + pipe.settings.overlap := by
  have positive : 0 < pipe.settings.overlap := by
    unfold IncrementalSettings.overlap microsPerSecond
    omega
  refine ⟨positive, ?_⟩
  unfold lateness
  rcases time with zoned | naive
  · refine ⟨pipe.settings.gap, Or.inl ⟨zoned, le_refl _⟩, ?_⟩
    rw [zoned]
  · refine ⟨0, Or.inr ⟨naive, rfl⟩, ?_⟩
    rw [naive]
    exact (Int.zero_add _).symm

theorem JobsInvariant.run (time : TimeKind pipe.kind) (overlap : 0 < pipe.settings.overlapSeconds)
    (begins : Begins warehouse) {busy : List (Event δ)}
    (alone : Along (Convergence.step pipe sizes target) (OneJob pipe) warehouse busy)
    (reached : Transition.run (Convergence.step pipe sizes target) warehouse busy = some next) :
    Exists fun slack : Int => Room pipe.settings slack pipe.kind ∧
      lateness pipe = slack + pipe.settings.overlap ∧ JobsInvariant pipe.settings.overlap slack next := by
  rcases exists_room time overlap with ⟨positive, slack, room, late⟩
  have start : JobsInvariant pipe.settings.overlap slack warehouse :=
    ⟨begins.sync.inv positive, passInvariant_of_idle begins.idle _ _, Or.inr begins.idle, begins.once⟩
  exact ⟨slack, room, late, run_invariant (JobsInvariant.step positive room late) start alone reached⟩

/-- While the source is busy, one job runs at a time and any of them may fail.  Once
a tick has seen all of a source that commits nothing more, the two tables are equal
after the first pass that finishes, and stay equal whatever ticks and passes do
then, at the same time and failing or not. -/
theorem lake_converges (pipe : Pipeline δ) (sizes : Reconcile.BatchSizes) (target : Reconcile.Target)
    (warehouse middle last : Warehouse δ) (busy quiet : List (Event δ))
    (time : TimeKind pipe.kind) (overlap : 0 < pipe.settings.overlapSeconds) (begins : Begins warehouse)
    (alone : Along (step pipe sizes target) (OneJob pipe) warehouse busy)
    (reached : run (step pipe sizes target) warehouse busy = some middle) (caught : CaughtUp middle)
    (isQuiet : forall event, event ∈ quiet -> Quiet event) (passed : .pass .finish ∈ quiet)
    (after : run (step pipe sizes target) middle quiet = some last) :
    last.sync.lake.Perm last.sync.source ∧ last.sync.source = middle.sync.source := by
  rcases JobsInvariant.run time overlap begins alone reached with ⟨slack, _, _, inv⟩
  have start := caught.quiet inv
  exact ⟨start.finished isQuiet passed after, (start.run isQuiet after).source⟩

/-- The lake has an old version of the one row, and a row of an id that is gone. -/
def sampleWarehouse : Warehouse Nat :=
  let old : Version Nat := { id := 1, updatedAt := some 4000000, commit := 0, data := 7 }
  let gone : Version Nat := { id := 9, updatedAt := some 3000000, commit := 0, data := 0 }
  { sync := { sampleWorld with table := some [old, gone] }, phase := .finished }

/-- A pass is interrupted by a write and fails; a tick reads both rows. -/
def sampleBusy : List (Event Nat) :=
  [.beginPass, .pass .scan, .pass .query, .sync (.source (.write 2 (some 10000000) 1)), .pass .fail,
    .sync (.source (.advanceClock 12000000))] ++ (wholeTick 1).map .sync

/-- A tick begins and fails in the middle of the pass. -/
def sampleQuiet : List (Event Nat) :=
  [.beginPass, .pass .scan, .sync .beginTick, .pass .query, .pass .delete, .sync (.tick 0 .create),
    .pass .endDeletes, .sync (.tick 0 .fail), .pass .finish]

def sampleMiddle : Warehouse Nat :=
  (run (step samplePipeline Reconcile.batchSizes Reconcile.sampleTarget) sampleWarehouse sampleBusy).getD
    sampleWarehouse

theorem sampleWarehouse_begins : Begins sampleWarehouse :=
  ⟨⟨sampleWorld_starts.source.congr rfl rfl rfl rfl, rfl, rfl, rfl⟩, rfl, by decide⟩

theorem sampleMiddle_caughtUp : CaughtUp sampleMiddle := by
  refine ⟨by decide, by decide, { asOf := 2, hi := some 11000000 }, by decide, by decide, ?_⟩
  have values : forall version, version ∈ sampleMiddle.sync.source ->
      version.updatedAt = some 5000000 ∨ version.updatedAt = some 10000000 := by decide
  intro version present bound value upper carries
  cases upper
  rcases values version present with early | late
  · cases early.symm.trans carries
    decide
  · cases late.symm.trans carries
    decide

theorem stale_lake_converges : Exists fun last : Warehouse Nat =>
    run (step samplePipeline Reconcile.batchSizes Reconcile.sampleTarget) sampleMiddle sampleQuiet = some last ∧
      last.sync.lake.Perm last.sync.source ∧ last.sync.source = sampleMiddle.sync.source := by
  have ended : (run (step samplePipeline Reconcile.batchSizes Reconcile.sampleTarget) sampleMiddle
      sampleQuiet).isSome = true := by decide
  rcases Option.isSome_iff_exists.mp ended with ⟨last, after⟩
  exact ⟨last, after, lake_converges samplePipeline Reconcile.batchSizes Reconcile.sampleTarget sampleWarehouse
    sampleMiddle last sampleBusy sampleQuiet (Or.inl rfl) (by decide) sampleWarehouse_begins (by decide) (by rfl)
    sampleMiddle_caughtUp (by decide) (by decide) after⟩

/-! ## The way back -/

section Recovery

/-- One job after the other leads there, and the source stays as it is.  The steps
of the way are named, so that ways can be put one after the other. -/
def Reaches (pipe : Pipeline δ) (sizes : Reconcile.BatchSizes) (target : Reconcile.Target)
    (warehouse next : Warehouse δ) : Prop :=
  Exists fun events : List (Event δ) => run (step pipe sizes target) warehouse events = some next ∧
    Along (step pipe sizes target) (OneJob pipe) warehouse events ∧ forall event, event ∈ events -> Quiet event

/-- Jobs that are under way can fail. -/
theorem exists_stop (pipe : Pipeline δ) (sizes : Reconcile.BatchSizes) (target : Reconcile.Target)
    {overlap slack : Int} (inv : JobsInvariant overlap slack warehouse) :
    Exists fun next : Warehouse δ => Reaches pipe sizes target warehouse next ∧
      next.sync.ticks = [] ∧ idle next.phase = true ∧ next.sync.source = warehouse.sync.source := by
  rcases inv.alone with alone | rests
  · by_cases rests : idle warehouse.phase = true
    · exact ⟨warehouse, ⟨[], rfl, trivial, List.forall_mem_nil _⟩, alone, rests, rfl⟩
    · have failed : Exists fun next : Warehouse δ =>
          step pipe sizes target warehouse (.pass .fail) = some next ∧ next.sync = warehouse.sync ∧
            next.phase = .failed := by
        simp only [step]
        cases table : warehouse.sync.table with
        | none => exact ⟨_, if_neg rests, rfl, rfl⟩
        | some lake =>
            refine ⟨{ warehouse with phase := .failed }, ?_, rfl, rfl⟩
            have same : { warehouse.sync with table := some lake } = warehouse.sync := by
              rw [← table]
            cases phase : warehouse.phase with
            | finished => exact absurd (by rw [phase]; rfl) rests
            | failed => exact absurd (by rw [phase]; rfl) rests
            | _ =>
                simp only [Reconcile.stepPass, passWorld, Option.map_some]
                rw [same]
      rcases failed with ⟨next, taken, same, phase⟩
      refine ⟨next, ⟨[.pass .fail], run_cons_eq_some.mpr ⟨next, taken, rfl⟩, ⟨trivial, fun _ _ => trivial⟩,
        List.forall_mem_singleton.mpr trivial⟩, ?_, ?_, ?_⟩
      · rw [same]
        exact alone
      · rw [phase]
        rfl
      · rw [same]
  · by_cases alone : warehouse.sync.ticks = []
    · exact ⟨warehouse, ⟨[], rfl, trivial, List.forall_mem_nil _⟩, alone, rests, rfl⟩
    · rcases List.exists_cons_of_ne_nil alone with ⟨tick, others, running⟩
      have single := inv.sync.single
      rw [running, List.length_cons] at single
      have none : others = [] := List.length_eq_zero_iff.mp (by omega)
      refine ⟨{ warehouse with sync := { warehouse.sync with ticks := [] } }, ⟨[.sync (.tick 0 .fail)], ?_,
        ⟨trivial, fun _ _ => trivial⟩, List.forall_mem_singleton.mpr trivial⟩, rfl, rests, rfl⟩
      have taken : TableSync.step pipe warehouse.sync (.tick 0 .fail) =
          some { warehouse.sync with ticks := [] } := by
        simp only [TableSync.step, stepTick, running, none]
        rfl
      refine run_cons_eq_some.mpr ⟨_, ?_, rfl⟩
      simp only [step, taken, Option.map_some]

/-- The batches of a window, one after the other. -/
theorem run_merges (pipe : Pipeline δ) (sizes : Reconcile.BatchSizes) (target : Reconcile.Target)
    (world : World δ) (phase : Reconcile.Phase (Version δ)) (window : Merging δ) (lake : List (Version δ))
    (batches : List (List (Version δ))) :
    Exists fun merged : List (Version δ) =>
      run (step pipe sizes target)
          { sync := { world with table := some lake, ticks := [.merging { window with pending := batches }] }
            phase := phase }
          (batches.map (fun _ => .sync (.tick 0 .merge))) =
        some { sync := { world with table := some merged, ticks := [.merging { window with pending := [] }] }
               phase := phase } := by
  induction batches generalizing lake with
  | nil => exact ⟨lake, rfl⟩
  | cons batch batches ih =>
      rcases ih (mergeInto lake batch) with ⟨merged, reached⟩
      exact ⟨merged, run_cons_eq_some.mpr ⟨_, rfl, reached⟩⟩

/-- The ticks that are let run to their end are allowed. -/
theorem along_ticks (events : List TickEvent) (warehouse : Warehouse δ) :
    Along (step pipe sizes target) (OneJob pipe) warehouse (events.map (fun event => .sync (.tick 0 event))) := by
  induction events generalizing warehouse with
  | nil => trivial
  | cons event events ih => exact ⟨trivial, fun next _ => ih next⟩

/-- A tick up to its window. -/
theorem run_window (world : World δ) (phase : Reconcile.Phase (Version δ)) :
    run (step pipe sizes target)
        { sync := { world with ticks := [.loaded world.table.isSome] }, phase := phase }
        ([.create, .read, .extract].map (fun event => .sync (.tick 0 event))) =
      some { sync := { world with
               table := some world.lake
               lastRead := world.clock
               ticks := [.merging (extractWindow pipe world world.clock world.mark)] }
             phase := phase } := by
  rcases world with ⟨clock, commits, source, table, watermark, boot, ticks, finished, lastRead⟩
  cases table with
  | none => rfl
  | some lake => rfl

/-- A tick that is left alone at a late enough clock sees all of the source. -/
theorem exists_tick (pipe : Pipeline δ) (sizes : Reconcile.BatchSizes) (target : Reconcile.Target)
    (time : TimeKind pipe.kind) (source : SourceInvariant warehouse.sync)
    (none : warehouse.sync.ticks = []) (rests : idle warehouse.phase = true) :
    Exists fun next : Warehouse δ => Reaches pipe sizes target warehouse next ∧
      CaughtUp next ∧ next.sync.table.isSome = true ∧ next.sync.source = warehouse.sync.source := by
  let clock := max warehouse.sync.clock (warehouse.sync.clock + pipe.settings.gap + 1)
  let later : World δ := { warehouse.sync with clock := clock }
  let window := extractWindow pipe later clock later.mark
  rcases run_merges pipe sizes target { later with lastRead := clock } warehouse.phase window later.lake
    window.pending with ⟨merged, merges⟩
  let tick : FinishedTick := { asOf := window.asOf, hi := window.hi }
  let next : Warehouse δ := { warehouse with sync := { later with
    lastRead := clock
    table := some merged
    watermark := some (Mark.advance later.watermark window.watermark)
    ticks := []
    finished := tick :: later.finished } }
  let steps : List TickEvent := [.create, .read, .extract] ++ (window.pending.map (fun _ => .merge) ++ [.advance])
  have waited : step pipe sizes target warehouse (.sync (.source (.advanceClock clock))) =
      some { warehouse with sync := later } := by
    simp only [step, TableSync.step, stepSource]
    rw [if_pos (le_max_left _ _), Option.map_some]
  have begun : step pipe sizes target { warehouse with sync := later } (.sync .beginTick) =
      some { warehouse with sync := { later with ticks := [.loaded later.table.isSome] } } := by
    simp only [step, TableSync.step, Option.map_some]
    rw [show later.ticks = [] from none, List.nil_append]
  refine ⟨next, ⟨.sync (.source (.advanceClock clock)) :: .sync .beginTick ::
    steps.map (fun event => .sync (.tick 0 event)), ?_, ?_, ?_⟩, ⟨rfl, rests, tick, ?_, rfl, ?_⟩, rfl, rfl⟩
  · refine run_cons_eq_some.mpr ⟨_, waited, run_cons_eq_some.mpr ⟨_, begun, ?_⟩⟩
    rw [List.map_append, List.map_append, List.map_map]
    exact run_append_eq_some.mpr ⟨_, run_window later warehouse.phase, run_append_eq_some.mpr ⟨_, merges, rfl⟩⟩
  · refine ⟨trivial, fun after taken => ⟨?_, fun _ _ => along_ticks steps _⟩⟩
    rw [Option.some.inj (taken.symm.trans waited)]
    exact ⟨none, rests⟩
  · intro event member
    rcases List.mem_cons.mp member with rfl | onward
    · trivial
    · rcases List.mem_cons.mp onward with rfl | ticking
      · trivial
      · rcases List.mem_map.mp ticking with ⟨_, _, rfl⟩
        trivial
  · exact List.mem_cons_self
  · intro version present bound value upper carries
    rcases source.stamped version present with ⟨stamp, stamped, _, before⟩
    have same : stamp = value := Option.some.inj (stamped.symm.trans carries)
    have beyond : warehouse.sync.clock + pipe.settings.gap + 1 ≤ clock := le_max_right _ _
    change upperBound pipe.settings clock pipe.kind = some bound at upper
    rcases time with zoned | naive
    · rw [zoned] at upper
      have hi : clock - pipe.settings.gap = bound := Option.some.inj upper
      omega
    · rw [naive] at upper
      cases upper

/-- The steps of the pass on the two tables are its steps here. -/
theorem run_pass {passes : List Reconcile.PassEvent} [DecidableEq δ] {lake : List (Version δ)}
    {after : Reconcile.World (Version δ) (Version δ)}
    (reached : run (Reconcile.step reconcileColumns sizes target) (passWorld warehouse.sync lake warehouse.phase)
      (passes.map .pass) = some after) :
    run (step pipe sizes target) { warehouse with sync := { warehouse.sync with table := some lake } }
        (passes.map .pass) =
      some { sync := { warehouse.sync with table := some after.lake }, phase := after.phase } := by
  induction passes generalizing lake warehouse with
  | nil =>
      cases reached
      rfl
  | cons event passes ih =>
      rcases run_cons_eq_some.mp reached with ⟨middle, taken, rest⟩
      have moved : Reconcile.stepPass reconcileColumns sizes target
          (passWorld warehouse.sync lake warehouse.phase) event = some middle := taken
      let onward : Warehouse δ :=
        { sync := { warehouse.sync with table := some middle.lake }, phase := middle.phase }
      have same : middle = passWorld onward.sync middle.lake onward.phase := by
        cases Reconcile.passEffect_of_stepPass moved with
        | _ => rfl
      rw [same] at rest
      refine run_cons_eq_some.mpr ⟨onward, ?_, ih rest⟩
      simp only [step]
      rw [show passWorld { warehouse.sync with table := some lake } lake warehouse.phase =
        passWorld warehouse.sync lake warehouse.phase from rfl, moved]
      rfl

/-- A pass that is left alone equalises the two tables. -/
theorem exists_pass (pipe : Pipeline δ) (sizes : Reconcile.BatchSizes) (target : Reconcile.Target)
    (inv : QuietInvariant warehouse) (rests : idle warehouse.phase = true)
    (created : warehouse.sync.table.isSome = true) :
    Exists fun events : List (Event δ) => Exists fun next : Warehouse δ =>
      run (step pipe sizes target) warehouse events = some next ∧ (forall event, event ∈ events -> Quiet event) ∧
        next.sync.lake.Perm warehouse.sync.source ∧ next.sync.source = warehouse.sync.source := by
  classical
  rcases Option.isSome_iff_exists.mp created with ⟨lake, present⟩
  have same : warehouse.sync.lake = lake := World.lake_eq present
  have complete := inv.complete
  rw [same] at complete
  have numbered (rows : List (Version δ)) : none ∉ rows.map Version.key := by
    rw [List.mem_map]
    rintro ⟨_, _, impossible⟩
    cases impossible
  have pass : Exists fun summary : Reconcile.Summary (Version δ) =>
      Reconcile.reconcileTable reconcileColumns sizes target warehouse.sync.source lake = some summary ∧
        forall value : Option Int, rowsAt Version.key value summary.lake =
          if value ∈ lake.map Version.key then
            if value ∈ warehouse.sync.source.map Version.key then rowsAt Version.key value lake else []
          else (rowsAt Version.key value warehouse.sync.source).map id :=
    Reconcile.rowsAt_reconcileTable sizes target complete.sourceOnce (numbered _) (numbered lake)
  rcases pass with ⟨summary, passed, left⟩
  let waiting : Warehouse δ := { warehouse with phase := .waiting }
  have alone : Exists fun passes : List Reconcile.PassEvent =>
      run (Reconcile.step reconcileColumns sizes target) (passWorld waiting.sync lake waiting.phase)
        (passes.map .pass) = some { passWorld waiting.sync lake waiting.phase with
          lake := summary.lake, phase := .finished } := Reconcile.run_alone rfl passed
  rcases alone with ⟨passes, ran⟩
  have ended : run (step pipe sizes target) { waiting with sync := { waiting.sync with table := some lake } }
      (passes.map .pass) = some { sync := { waiting.sync with table := some summary.lake }, phase := .finished } :=
    run_pass ran
  have began : step pipe sizes target warehouse .beginPass =
      some { waiting with sync := { waiting.sync with table := some lake } } := by
    simp only [step, if_pos rests, waiting]
    rw [← present]
  refine ⟨.beginPass :: passes.map .pass, _, run_cons_eq_some.mpr ⟨_, began, ended⟩, ?_, ?_, rfl⟩
  · intro event member
    rcases List.mem_cons.mp member with rfl | passing
    · trivial
    · rcases List.mem_map.mp passing with ⟨_, _, rfl⟩
      trivial
  · change summary.lake.Perm warehouse.sync.source
    have equal (value : Option Int) :
        rowsAt Version.key value summary.lake = rowsAt Version.key value warehouse.sync.source := by
      rw [left]
      by_cases known : value ∈ warehouse.sync.source.map Version.key
      · rcases List.mem_map.mp known with ⟨version, present, rfl⟩
        have held := complete.holds version present
        rw [if_pos (List.mem_map_of_mem held), if_pos known]
        exact (complete.lakeOnce.rowsAt_eq held rfl).trans (complete.sourceOnce.rowsAt_eq present rfl).symm
      · rw [if_neg known, rowsAt_eq_nil_iff.mpr known, List.map_nil, ite_self]
    exact perm_of_rowsAt equal

end Recovery

/-- Wherever a run with one job at a time has come to, the jobs alone lead from
there to equal tables, without a further commit of the source.  What is under way
may be given up: the way starts with a tick and ends with a pass. -/
theorem lake_recovers (pipe : Pipeline δ) (sizes : Reconcile.BatchSizes) (target : Reconcile.Target)
    (warehouse middle : Warehouse δ) (busy : List (Event δ))
    (time : TimeKind pipe.kind) (overlap : 0 < pipe.settings.overlapSeconds) (begins : Begins warehouse)
    (alone : Along (step pipe sizes target) (OneJob pipe) warehouse busy)
    (reached : run (step pipe sizes target) warehouse busy = some middle) :
    Exists fun recovery : List (Event δ) => Exists fun last : Warehouse δ =>
      (forall event, event ∈ recovery -> Quiet event) ∧
        run (step pipe sizes target) middle recovery = some last ∧
        last.sync.lake.Perm middle.sync.source ∧ last.sync.source = middle.sync.source := by
  rcases JobsInvariant.run time overlap begins alone reached with ⟨slack, room, late, inv⟩
  rcases exists_room time overlap with ⟨positive, _⟩
  have preserved (current : Warehouse δ) (event : Event δ) (next : Warehouse δ) :
      JobsInvariant pipe.settings.overlap slack current -> OneJob pipe current event ->
        step pipe sizes target current event = some next -> JobsInvariant pipe.settings.overlap slack next :=
    JobsInvariant.step positive room late current event next
  rcases exists_stop pipe sizes target inv with ⟨stopped, ⟨stop, first, allowed, quiet⟩, ticks, rests, source⟩
  have still := run_invariant preserved inv allowed first
  rcases exists_tick pipe sizes target time still.sync.source ticks rests with
    ⟨ticked, ⟨tick, second, onward, ticking⟩, caught, created, same⟩
  have recent := caught.quiet (run_invariant preserved still onward second)
  rcases exists_pass pipe sizes target recent caught.idle created with ⟨pass, last, third, passing, equal, kept⟩
  have unchanged : ticked.sync.source = middle.sync.source := same.trans source
  refine ⟨stop ++ (tick ++ pass), last, ?_, ?_, unchanged ▸ equal, kept.trans unchanged⟩
  · intro event member
    rcases List.mem_append.mp member with stops | later
    · exact quiet event stops
    · exact (List.mem_append.mp later).elim (ticking event) (passing event)
  · exact run_append_eq_some.mpr ⟨stopped, first, run_append_eq_some.mpr ⟨ticked, second, third⟩⟩

/-- From within the first pass, after the write. -/
theorem interrupted_pass_recovers : Exists fun middle : Warehouse Nat =>
    run (step samplePipeline Reconcile.batchSizes Reconcile.sampleTarget) sampleWarehouse (sampleBusy.take 4) =
        some middle ∧
      Exists fun recovery : List (Event Nat) => Exists fun last : Warehouse Nat =>
        (forall event, event ∈ recovery -> Quiet event) ∧
          run (step samplePipeline Reconcile.batchSizes Reconcile.sampleTarget) middle recovery = some last ∧
          last.sync.lake.Perm middle.sync.source ∧ last.sync.source = middle.sync.source := by
  have ran : (run (step samplePipeline Reconcile.batchSizes Reconcile.sampleTarget) sampleWarehouse
      (sampleBusy.take 4)).isSome = true := by decide
  rcases Option.isSome_iff_exists.mp ran with ⟨middle, reached⟩
  exact ⟨middle, reached, lake_recovers samplePipeline Reconcile.batchSizes Reconcile.sampleTarget sampleWarehouse
    middle (sampleBusy.take 4) (Or.inl rfl) (by decide) sampleWarehouse_begins (by decide) reached⟩

end Convergence
end WarehouseSync

import WarehouseSync.Orchestration.SteadyState

namespace WarehouseSync
namespace TableSync

open Incremental KeyedRows Transition Watermarks

/-!
# From a bootstrap to the first ticks (`extract/incremental.py`, `bootstrap_job.py`)

Chunks are read one after the other while the source keeps committing, and the
watermark is seeded with what is the maximum after the last of them.  A version
that no chunk saw is picked up later only if it lies above the lower bound of
the first window, so all depends on the overlap reaching back over the copy.
-/

universe u

variable {δ : Type u}

/-- Every write carries the current time and is visible at once, and ticks run one
after the other, once the bootstrap run is over.  This is the most favourable case,
in which only the seed can lose a row. -/
def BootThenTicks (world : World δ) : Event δ -> Prop
  | .source (.write _ updatedAt _) => updatedAt = some world.clock
  | .beginTick => world.boot = .finished ∧ world.ticks = []
  | _ => True

/-- When the watermark is seeded, every current version that the lake does not hold
lies above the lower bound of the window that the seed leads to.  It is a condition
on the state before that step: how long the copying took against the overlap. -/
def SeedCovers (pipe : Pipeline δ) (world : World δ) : Event δ -> Prop
  | .boot .seedStore => forall greatest, world.boot = .seeding greatest ->
      forall version, version ∈ world.source -> version ∈ world.lake ∨
        Above pipe.settings.overlap
          { value := greatest, lastId := greatestId world.source greatest } version
  | _ => True

/-- Nothing was seeded yet, and a maximum that was read is not ahead of time.  This
is the first of the two phases of a run. -/
structure BootInvariant (world : World δ) : Prop where
  source : SourceInvariant world
  watermark : world.watermark = none
  ticks : world.ticks = []
  finished : world.finished = []
  seeding : forall greatest, world.boot = .seeding greatest -> greatest ≤ world.lastRead

variable {pipe : Pipeline δ} {overlap : Int} {world after : World δ}

theorem le_of_greatestValue (source : SourceInvariant world) {greatest : Int}
    (found : greatestValue world.source = some greatest) : greatest ≤ world.clock := by
  have listed := List.max?_mem found
  rcases List.mem_filterMap.mp listed with ⟨version, member, carries⟩
  rcases source.stamped version member with ⟨value, valued, _, before⟩
  have same : greatest = value := Option.some.inj (carries.symm.trans valued)
  omega

/-- A seed that covers what the lake does not hold starts the ticks off. -/
theorem BootInvariant.seed (inv : BootInvariant world) {greatest : Int}
    (seeding : world.boot = .seeding greatest)
    (covers : forall version, version ∈ world.source -> version ∈ world.lake ∨
      Above overlap { value := greatest, lastId := greatestId world.source greatest } version) :
    SyncInvariant overlap 0 { world with
      watermark := some (Mark.advance world.watermark
        { value := greatest, lastId := greatestId world.source greatest })
      boot := .finished } := by
  rw [inv.watermark]
  refine ⟨inv.source.congr rfl rfl rfl rfl, covers, Or.inr ?_, ?_, ?_, ?_⟩
  · have read := inv.seeding greatest seeding
    change greatest + 0 ≤ world.lastRead
    omega
  · rw [inv.finished]
    exact List.forall_mem_nil _
  · rw [inv.ticks]
    exact List.forall_mem_nil _
  · rw [inv.ticks]
    exact Nat.zero_le 1

/-- Without a seed the first window starts before every version. -/
theorem BootInvariant.unseeded (inv : BootInvariant world) (positive : 0 < overlap) :
    SyncInvariant overlap 0 { world with boot := .finished } := by
  have start : Starts { world with boot := Boot.finished } :=
    ⟨inv.source.congr rfl rfl rfl rfl, inv.watermark, inv.ticks, inv.finished⟩
  exact start.inv positive

/-- What was committed after the window was read is not below its upper bound.  It
follows from the safety gap, because writes carry the time at which they become
visible. -/
structure Punctual (world : World δ) (asOf : Nat) (hi : Option Int) : Prop where
  past : forall bound, hi = some bound -> bound ≤ world.clock
  later : forall version, version ∈ world.source -> asOf ≤ version.commit ->
    forall bound value, hi = some bound -> version.updatedAt = some value -> bound ≤ value

theorem Punctual.mono {asOf : Nat} {hi : Option Int} (punctual : Punctual world asOf hi)
    (clock : world.clock ≤ after.clock)
    (rows : forall version, version ∈ after.source -> version ∈ world.source ∨
      version.updatedAt = some world.clock) : Punctual after asOf hi := by
  refine ⟨fun bound upper => le_trans (punctual.past bound upper) clock, ?_⟩
  intro version member unseen bound value upper carries
  rcases rows version member with old | new
  · exact punctual.later version old unseen bound value upper carries
  · have same : world.clock = value := Option.some.inj (new.symm.trans carries)
    exact same ▸ punctual.past bound upper

/-- The bootstrap run is over, and the ticks are as in a steady run.  From here on
the invariant of the ticks alone is enough, with a lateness of nothing. -/
structure TicksInvariant (pipe : Pipeline δ) (world : World δ) : Prop where
  boot : world.boot = .finished
  sync : SyncInvariant pipe.settings.overlap 0 world
  finished : forall tick, tick ∈ world.finished -> Punctual world tick.asOf tick.hi
  windows : forall window, Tick.merging window ∈ world.ticks -> Punctual world window.asOf window.hi

theorem TicksInvariant.mono (inv : TicksInvariant pipe world)
    (sync : SyncInvariant pipe.settings.overlap 0 after) (boot : after.boot = world.boot)
    (finished : after.finished = world.finished) (clock : world.clock ≤ after.clock)
    (rows : forall version, version ∈ after.source -> version ∈ world.source ∨
      version.updatedAt = some world.clock)
    (windows : forall window, Tick.merging window ∈ after.ticks -> Punctual after window.asOf window.hi) :
    TicksInvariant pipe after := by
  refine ⟨boot.trans inv.boot, sync, ?_, windows⟩
  rw [finished]
  exact fun tick member => (inv.finished tick member).mono clock rows

theorem TicksInvariant.write (inv : TicksInvariant pipe world) (positive : 0 < pipe.settings.overlap)
    (epoch : 0 ≤ world.clock) {id : Int} {data : δ}
    (taken : stepSource world (.write id (some world.clock) data) = some after) :
    TicksInvariant pipe after := by
  have read := inv.sync.source.read
  have admitted : Admitted pipe.settings.overlap 0 world (some world.clock) :=
    ⟨world.clock, rfl, epoch, le_refl _, by omega⟩
  have sync := inv.sync.write positive admitted taken
  cases taken
  have rows : forall version, version ∈ world.source.filter (fun version => decide (version.id ≠ id)) ++
      [{ id := id, updatedAt := some world.clock, commit := world.commits, data := data }] ->
        version ∈ world.source ∨ version.updatedAt = some world.clock := by
    intro version member
    rcases List.mem_append.mp member with old | new
    · exact Or.inl (List.mem_of_mem_filter old)
    · exact Or.inr (List.mem_singleton.mp new ▸ rfl)
  exact inv.mono sync rfl rfl (le_refl _) rows
    (fun window member => (inv.windows window member).mono (le_refl _) rows)

/-- Other steps of the source only remove rows or let time pass. -/
theorem TicksInvariant.shrink (inv : TicksInvariant pipe world)
    (sync : SyncInvariant pipe.settings.overlap 0 after) (boot : after.boot = world.boot)
    (finished : after.finished = world.finished) (ticks : after.ticks = world.ticks)
    (clock : world.clock ≤ after.clock)
    (rows : forall version, version ∈ after.source -> version ∈ world.source) :
    TicksInvariant pipe after := by
  refine inv.mono sync boot finished clock (fun version member => Or.inl (rows version member)) ?_
  rw [ticks]
  exact fun window member =>
    (inv.windows window member).mono clock (fun version listed => Or.inl (rows version listed))

theorem TicksInvariant.stepTick (inv : TicksInvariant pipe world) (positive : 0 < pipe.settings.overlap)
    (zoned : pipe.kind = .timestampTz) (gap : 0 ≤ pipe.settings.gap) {index : Nat} {event : TickEvent}
    (taken : step pipe world (.tick index event) = some after) : TicksInvariant pipe after := by
  have sync := inv.sync.stepTick positive (Or.inl ⟨zoned, gap⟩) taken
  rcases Option.bind_eq_some_iff.mp taken with ⟨tick, found, stepped⟩
  rcases Option.map_eq_some_iff.mp stepped with ⟨next, moved, rfl⟩
  rcases single_tick inv.sync.single found with ⟨alone, rfl⟩
  have running := inv.sync.running tick (alone ▸ List.mem_singleton_self tick)
  have windows := inv.windows
  rw [alone] at sync windows ⊢
  rcases stepTick_cases moved with ⟨known, rfl, rfl⟩ | ⟨rfl, rfl⟩ | ⟨now, wm, rfl, rfl⟩ |
    ⟨window, batch, rest, lake, rfl, pending, present, rfl⟩ | ⟨window, rfl, pending, rfl⟩ | rfl
  · rcases createTable_eq world known with ⟨table, _, created⟩
    rw [created] at sync ⊢
    refine inv.mono sync rfl rfl (le_refl _) (fun _ => Or.inl) fun window member => ?_
    cases List.mem_singleton.mp member
  · refine inv.mono sync rfl rfl (le_refl _) (fun _ => Or.inl) fun window member => ?_
    cases List.mem_singleton.mp member
  · refine inv.mono sync rfl rfl (le_refl _) (fun _ => Or.inl) fun window member => ?_
    cases List.mem_singleton.mp member
    refine ⟨fun bound upper => ?_, fun version listed unseen => ?_⟩
    · have before := running.2
      have same : now - pipe.settings.gap = bound := by
        simpa [extractWindow, upperBound, zoned] using upper
      change bound ≤ world.clock
      omega
    · exact absurd (inv.sync.source.numbered version listed) (not_lt_of_ge unseen)
  · refine inv.mono sync rfl rfl (le_refl _) (fun _ => Or.inl) fun next member => ?_
    cases List.mem_singleton.mp member
    exact (windows window (List.mem_singleton_self _)).mono (le_refl _) (fun _ => Or.inl)
  · refine ⟨inv.boot, sync, fun tick member => ?_, fun window member => ?_⟩
    · rcases List.mem_cons.mp member with rfl | earlier
      · exact (windows window (List.mem_singleton_self _)).mono (le_refl _) (fun _ => Or.inl)
      · exact (inv.finished tick earlier).mono (le_refl _) (fun _ => Or.inl)
    · cases member
  · refine inv.mono sync rfl rfl (le_refl _) (fun _ => Or.inl) fun window member => ?_
    cases member

/-! ## The whole run -/

/-- The run is in one of its two phases.  The step that stores the seed leads from
the first to the second, and it is the only one that needs the condition. -/
def SeedInvariant (pipe : Pipeline δ) (world : World δ) : Prop :=
  0 ≤ world.clock ∧ ((world.boot ≠ .finished ∧ BootInvariant world) ∨ TicksInvariant pipe world)

theorem BootInvariant.congr (inv : BootInvariant world) (source : SourceInvariant after)
    (watermark : after.watermark = world.watermark) (ticks : after.ticks = world.ticks)
    (finished : after.finished = world.finished)
    (seeding : forall greatest, after.boot = .seeding greatest -> greatest ≤ after.lastRead) :
    BootInvariant after :=
  ⟨source, watermark.trans inv.watermark, ticks.trans inv.ticks, finished.trans inv.finished, seeding⟩

/-- The ticks take over from a finished run. -/
theorem BootInvariant.takeOver (inv : BootInvariant world) {after : World δ}
    (boot : after.boot = .finished) (ticks : after.ticks = world.ticks)
    (finished : after.finished = world.finished) (sync : SyncInvariant pipe.settings.overlap 0 after) :
    TicksInvariant pipe after := by
  refine ⟨boot, sync, ?_, ?_⟩
  · rw [finished, inv.finished]
    exact List.forall_mem_nil _
  · intro window member
    rw [ticks, inv.ticks] at member
    cases member

theorem BootInvariant.stepBoot (inv : BootInvariant world)
    (positive : 0 < pipe.settings.overlap) {event : BootEvent}
    (covers : SeedCovers pipe world (.boot event))
    (taken : TableSync.stepBoot pipe world event = some after) :
    (after.boot ≠ .finished ∧ BootInvariant after) ∨ TicksInvariant pipe after := by
  rcases stepBoot_cases taken with ⟨_, rfl⟩ | ⟨found, _, rfl⟩ | ⟨chunks, _, rfl⟩ |
    ⟨copies, index, copy, copyEvent, next, _, _, _, _, rfl⟩ | ⟨greatest, found, _, rfl⟩ |
    ⟨greatest, rfl, seeding, rfl⟩ | ⟨_, rfl⟩
  · refine Or.inl ⟨by rintro ⟨⟩, inv.congr (inv.source.congr rfl rfl rfl rfl) rfl rfl rfl ?_⟩
    rintro greatest ⟨⟩
  · rcases createTable_eq world found with ⟨table, _, created⟩
    rw [created]
    refine Or.inl ⟨by rintro ⟨⟩, inv.congr (inv.source.congr rfl rfl rfl rfl) rfl rfl rfl ?_⟩
    rintro greatest ⟨⟩
  · refine Or.inl ⟨by rintro ⟨⟩, inv.congr (inv.source.congr rfl rfl rfl rfl) rfl rfl rfl ?_⟩
    rintro greatest ⟨⟩
  · refine Or.inl ⟨by rintro ⟨⟩, inv.congr (inv.source.congr rfl rfl rfl rfl) rfl rfl rfl ?_⟩
    rintro greatest ⟨⟩
  · have source : SourceInvariant { world with boot := .seeding greatest, lastRead := world.clock } :=
      ⟨inv.source.numbered, inv.source.once, inv.source.stamped, le_refl _⟩
    refine Or.inl ⟨by rintro ⟨⟩, inv.congr source rfl rfl rfl ?_⟩
    rintro other ⟨⟩
    exact le_of_greatestValue inv.source found
  · exact Or.inr (inv.takeOver rfl rfl rfl (inv.seed seeding (covers greatest seeding)))
  · exact Or.inr (inv.takeOver rfl rfl rfl (inv.unseeded positive))

/-- A step of the source during the bootstrap run. -/
theorem BootInvariant.stepSource (inv : BootInvariant world) (epoch : 0 ≤ world.clock)
    {event : SourceEvent δ} (punctual : BootThenTicks world (.source event))
    (taken : TableSync.stepSource world event = some after) :
    after.boot = world.boot ∧ BootInvariant after := by
  rcases stepSource_cases taken with ⟨clock, _, later, rfl⟩ | ⟨id, updatedAt, data, rfl, rfl⟩ | ⟨id, _, rfl⟩
  · exact ⟨rfl, inv.congr (inv.source.advanceClock later) rfl rfl rfl inv.seeding⟩
  · have stamped : updatedAt = some world.clock := punctual
    exact ⟨rfl, inv.congr (inv.source.write id data ⟨world.clock, stamped, epoch, le_refl _⟩) rfl rfl rfl
      inv.seeding⟩
  · exact ⟨rfl, inv.congr (inv.source.delete id) rfl rfl rfl inv.seeding⟩

theorem TicksInvariant.stepSource (inv : TicksInvariant pipe world) (positive : 0 < pipe.settings.overlap)
    (epoch : 0 ≤ world.clock) {event : SourceEvent δ} (punctual : BootThenTicks world (.source event))
    (taken : TableSync.stepSource world event = some after) : TicksInvariant pipe after := by
  rcases stepSource_cases taken with ⟨clock, _, later, rfl⟩ | ⟨id, updatedAt, data, rfl, _⟩ | ⟨id, _, rfl⟩
  · exact inv.shrink (inv.sync.advanceClock later) rfl rfl rfl later (fun _ member => member)
  · have stamped : updatedAt = some world.clock := punctual
    subst stamped
    exact inv.write positive epoch taken
  · exact inv.shrink (inv.sync.delete id) rfl rfl rfl (le_refl _)
      (fun _ member => List.mem_of_mem_filter member)

theorem TicksInvariant.beginTick (inv : TicksInvariant pipe world) (idle : world.ticks = [])
    (taken : step pipe world .beginTick = some after) : TicksInvariant pipe after := by
  have sync := inv.sync.beginTick idle taken
  cases taken
  refine inv.mono sync rfl rfl (le_refl _) (fun _ => Or.inl) fun window member => ?_
  rw [idle] at member
  cases List.mem_singleton.mp member

/-- Time does not go back. -/
theorem clock_le_step {event : Event δ} (taken : step pipe world event = some after) :
    world.clock ≤ after.clock := by
  cases event with
  | source event =>
      rcases stepSource_cases taken with ⟨clock, _, later, rfl⟩ | ⟨_, _, _, _, rfl⟩ | ⟨_, _, rfl⟩
      · exact later
      · exact le_refl _
      · exact le_refl _
  | boot event =>
      rcases stepBoot_cases taken with ⟨_, rfl⟩ | ⟨found, _, rfl⟩ | ⟨_, _, rfl⟩ |
        ⟨_, _, _, _, _, _, _, _, _, rfl⟩ | ⟨_, _, _, rfl⟩ | ⟨_, _, _, rfl⟩ | ⟨_, rfl⟩
      · exact le_refl _
      · rcases createTable_eq world found with ⟨table, _, created⟩
        rw [created]
      · exact le_refl _
      · exact le_refl _
      · exact le_refl _
      · exact le_refl _
      · exact le_refl _
  | beginTick =>
      cases taken
      exact le_refl _
  | tick index event =>
      rcases Option.bind_eq_some_iff.mp taken with ⟨tick, _, stepped⟩
      rcases Option.map_eq_some_iff.mp stepped with ⟨next, moved, rfl⟩
      rcases stepTick_cases moved with ⟨found, _, rfl⟩ | ⟨_, rfl⟩ | ⟨_, _, _, rfl⟩ |
        ⟨_, _, _, _, _, _, _, rfl⟩ | ⟨_, _, _, rfl⟩ | rfl
      · rcases createTable_eq world found with ⟨table, _, created⟩
        simp only [created]
        exact le_refl _
      · exact le_refl _
      · exact le_refl _
      · exact le_refl _
      · exact le_refl _
      · exact le_refl _

theorem SeedInvariant.step (positive : 0 < pipe.settings.overlap) (zoned : pipe.kind = .timestampTz)
    (gap : 0 ≤ pipe.settings.gap) (world : World δ) (event : Event δ) (after : World δ)
    (inv : SeedInvariant pipe world) (allowed : BootThenTicks world event ∧ SeedCovers pipe world event)
    (taken : TableSync.step pipe world event = some after) : SeedInvariant pipe after := by
  rcases inv with ⟨epoch, phase⟩
  refine ⟨le_trans epoch (clock_le_step taken), ?_⟩
  rcases phase with ⟨running, boot⟩ | ticks
  · cases event with
    | source event =>
        rcases boot.stepSource epoch allowed.1 taken with ⟨same, next⟩
        exact Or.inl ⟨same ▸ running, next⟩
    | boot event => exact boot.stepBoot positive allowed.2 taken
    | beginTick => exact absurd allowed.1.1 running
    | tick index event =>
        rcases Option.bind_eq_some_iff.mp taken with ⟨tick, found, _⟩
        rw [boot.ticks] at found
        cases found
  · cases event with
    | source event => exact Or.inr (ticks.stepSource positive epoch allowed.1 taken)
    | boot event =>
        have stuck : TableSync.stepBoot pipe world event = none := stepBoot_finished ticks.boot event
        cases stuck.symm.trans taken
    | beginTick => exact Or.inr (ticks.beginTick allowed.1.2 taken)
    | tick index event => exact Or.inr (ticks.stepTick positive zoned gap taken)

/-- A bootstrap run is about to start on a table without watermark.  The clock is
not before the epoch, which is where the first window of all starts. -/
structure BeforeBootstrap (world : World δ) : Prop where
  start : Starts world
  boot : world.boot = .notStarted
  epoch : 0 ≤ world.clock

/-- If the seed of the run covers what the lake does not hold, then after any number
of sequential ticks every source row below the upper bound of a finished tick is in
the lake in its current version. -/
theorem bootstrap_then_ticks_lose_nothing (pipe : Pipeline δ) (world last : World δ)
    (events : List (Event δ)) (zoned : pipe.kind = .timestampTz)
    (overlap : 0 < pipe.settings.overlapSeconds) (gap : 0 ≤ pipe.settings.gapSeconds)
    (before : BeforeBootstrap world) (ordered : Along (step pipe) BootThenTicks world events)
    (covers : Along (step pipe) (SeedCovers pipe) world events)
    (reached : run (step pipe) world events = some last) :
    forall tick, tick ∈ last.finished -> forall version, version ∈ last.source ->
      forall hi value, tick.hi = some hi -> version.updatedAt = some value -> value < hi ->
        version ∈ last.lake := by
  have positive : 0 < pipe.settings.overlap := by
    unfold IncrementalSettings.overlap microsPerSecond
    omega
  have gapped : 0 ≤ pipe.settings.gap := by
    unfold IncrementalSettings.gap microsPerSecond
    omega
  have start : SeedInvariant pipe world := by
    refine ⟨before.epoch, Or.inl ⟨by rw [before.boot]; rintro ⟨⟩, ?_⟩⟩
    refine ⟨before.start.source, before.start.watermark, before.start.ticks, before.start.finished, ?_⟩
    rw [before.boot]
    rintro greatest ⟨⟩
  have inv : SeedInvariant pipe last :=
    run_invariant (SeedInvariant.step positive zoned gapped) start (ordered.and covers) reached
  intro tick member version listed hi value upper carries below
  rcases inv.2 with ⟨_, boot⟩ | ticks
  · rw [boot.finished] at member
    cases member
  · by_cases visible : version.commit < tick.asOf
    · refine (ticks.sync.logged tick member).2 version listed visible ?_
      intro bound other same stamped
      cases upper.symm.trans same
      cases carries.symm.trans stamped
      exact below
    · have later := (ticks.finished tick member).later version listed (not_lt.mp visible) hi value upper carries
      omega

instance decidableBootThenTicks (world : World δ) :
    forall event : Event δ, Decidable (BootThenTicks world event)
  | .source (.write _ updatedAt _) => inferInstanceAs (Decidable (updatedAt = some world.clock))
  | .source (.advanceClock _) => isTrue trivial
  | .source (.delete _) => isTrue trivial
  | .boot _ => isTrue trivial
  | .beginTick =>
      match ended : world.boot with
      | .finished => decidable_of_iff (world.ticks = []) ⟨fun idle => ⟨ended, idle⟩, fun both => both.2⟩
      | .notStarted | .loaded _ | .created | .copying _ | .seeding _ =>
          isFalse (fun both => by cases ended.symm.trans both.1)
  | .tick _ _ => isTrue trivial

instance decidableAbove (overlap : Int) (mark : Mark) (version : Version δ) :
    Decidable (Above overlap mark version) :=
  decidableStamped version.updatedAt _

instance decidableSeedCovers [DecidableEq δ] (pipe : Pipeline δ) (world : World δ) :
    forall event : Event δ, Decidable (SeedCovers pipe world event)
  | .boot .seedStore =>
      match seeding : world.boot with
      | .seeding greatest => decidable_of_iff
          (forall version, version ∈ world.source -> version ∈ world.lake ∨ Above pipe.settings.overlap
            { value := greatest, lastId := greatestId world.source greatest } version)
          ⟨fun all other same => by cases seeding.symm.trans same; exact all, fun all => all greatest seeding⟩
      | .notStarted | .loaded _ | .created | .copying _ | .finished =>
          isTrue (fun _ same => by cases seeding.symm.trans same)
  | .boot .load | .boot .create | .boot .plan | .boot (.copy _ _) | .boot .seedRead | .boot .seedSkip =>
      isTrue trivial
  | .source _ => isTrue trivial
  | .beginTick => isTrue trivial
  | .tick _ _ => isTrue trivial

/-- A run that copies its one chunk, after which these events happen at the
source, seeds the watermark, and is followed by one tick. -/
def bootstrapAndTick (during : List (Event Nat)) : List (Event Nat) :=
  [.boot .load, .boot .create, .boot .plan, .boot (.copy 0 .extract), .boot (.copy 0 .commit),
    .boot (.copy 0 .markDone)] ++ during ++ [.boot .seedRead, .boot .seedStore,
    .source (.advanceClock 30000000)] ++ wholeTick 1

theorem sampleWorld_beforeBootstrap : BeforeBootstrap sampleWorld :=
  ⟨sampleWorld_starts, rfl, by decide⟩

/-- A row written between the copy and the seed, and nothing later. -/
def shortBootstrap : List (Event Nat) :=
  bootstrapAndTick [.source (.advanceClock 11500000), .source (.write 2 (some 11500000) 1)]

theorem short_bootstrap_loses_nothing : Exists fun last : World Nat =>
    run (step samplePipeline) sampleWorld shortBootstrap = some last ∧
      forall tick, tick ∈ last.finished -> forall version, version ∈ last.source ->
        forall hi value, tick.hi = some hi -> version.updatedAt = some value -> value < hi ->
          version ∈ last.lake := by
  have finished : (run (step samplePipeline) sampleWorld shortBootstrap).isSome = true := by decide
  rcases Option.isSome_iff_exists.mp finished with ⟨last, reached⟩
  exact ⟨last, reached, bootstrap_then_ticks_lose_nothing samplePipeline sampleWorld last shortBootstrap
    rfl (by decide) (by decide) sampleWorld_beforeBootstrap (by decide) (by decide) reached⟩

/-- A second row nine seconds later lifts the seed above the first one. -/
def longBootstrap : List (Event Nat) :=
  bootstrapAndTick [.source (.advanceClock 11000000), .source (.write 2 (some 11000000) 1),
    .source (.advanceClock 20000000), .source (.write 3 (some 20000000) 2)]

theorem long_bootstrap_loses_a_row : BeforeBootstrap sampleWorld ∧
    Along (step samplePipeline) BootThenTicks sampleWorld longBootstrap ∧
      Exists fun last : World Nat => run (step samplePipeline) sampleWorld longBootstrap = some last ∧
        Exists fun tick => tick ∈ last.finished ∧ Exists fun version => version ∈ last.source ∧
          tick.hi = some 29000000 ∧ version.updatedAt = some 11000000 ∧ version ∉ last.lake := by
  have lost : (run (step samplePipeline) sampleWorld longBootstrap).map (fun last =>
      decide (Exists fun tick => tick ∈ last.finished ∧ Exists fun version => version ∈ last.source ∧
        tick.hi = some 29000000 ∧ version.updatedAt = some 11000000 ∧ version ∉ last.lake)) =
          some true := by decide
  rcases Option.map_eq_some_iff.mp lost with ⟨last, reached, found⟩
  exact ⟨sampleWorld_beforeBootstrap, by decide, last, reached, of_decide_eq_true found⟩

end TableSync
end WarehouseSync

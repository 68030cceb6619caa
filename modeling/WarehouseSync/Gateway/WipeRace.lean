import WarehouseSync.Orchestration.TableSync

namespace WarehouseSync
namespace WipeRace

open Incremental KeyedRows TableSync Transition Watermarks

/-!
# Wiping a connection under a running sync (`gateway/app.py`)

`wipe_connection` drops the catalog entries, deletes the objects in S3, deletes
the rows of the metadata database and only then terminates the runs of the
connection.  An incremental run of one of its tables takes its steps in between,
and what it raises is retried from the start.

A run that was already merging when the entry was dropped still advances the
watermark, which then outlives the table.  What is right for the end is that a
watermark stands for a table with every version merged so far, except for those
that the source has replaced or deleted since.
-/

universe u

variable {δ : Type u}

/-- The next step of the wipe.  Results of queries, which it deletes as well, have
nothing to do with the table and are left out. -/
inductive WipeStage where
  | dropTables
  | deleteRaw
  | deleteCurated
  | deleteState
  | deleteRuns
  | finished
deriving DecidableEq, Repr

/-- The objects of the tables are deleted. -/
def WipeStage.pastObjects : WipeStage -> Bool
  | .dropTables => false
  | .deleteRaw => false
  | .deleteCurated => false
  | _ => true

/-- The watermarks are deleted. -/
def WipeStage.pastState : WipeStage -> Bool
  | .deleteRuns => true
  | .finished => true
  | _ => false

/-- What a step of the wipe does to the one table.  A deletion of a prefix goes page by
page and may stop on the way, so that it takes data files of the table and leaves
its metadata file. -/
inductive Outcome where
  | done
  | partly
  | failed
deriving DecidableEq, Repr

/-- An attempt of the op, and how far the wipe was when the attempt looked for the
table and when it read the watermark.  The attempt knows nothing of the wipe, and
these two are only what is said about it. -/
structure Attempt (δ : Type u) where
  tick : Tick δ
  looked : WipeStage
  read : WipeStage
deriving DecidableEq

/-- One table of the connection.  `readable` says that the metadata file of the
registered table is in S3, which is all that is looked at when the table is loaded,
and `intact` that its data files are there as well.  `staged` says that the window
of the attempt is there, and `merged` lists every version that was ever merged. -/
structure Scene (δ : Type u) where
  sync : World δ
  readable : Bool
  intact : Bool
  staged : Bool
  merged : List (Version δ)
  wipe : WipeStage
  attempt : Option (Attempt δ)
  retries : Nat
  ended : Bool
deriving DecidableEq

inductive Event (δ : Type u) where
  | source (event : SourceEvent δ)
  /-- The next step of the wipe; what it cannot drop, delete or terminate stays. -/
  | wipe (outcome : Outcome)
  | begin
  | run (event : TickEvent)
deriving DecidableEq

/-- Only the `DELETE`s are not best-effort: they raise, and then the wipe does not
go on.  Every other step may fail, and the next is taken all the same. -/
def stepWipe (scene : Scene δ) (outcome : Outcome) : Option (Scene δ) :=
  match scene.wipe with
  | .dropTables =>
      some { scene with
        sync := { scene.sync with table := if outcome = .done then none else scene.sync.table }
        wipe := .deleteRaw }
  | .deleteRaw => some { scene with staged := scene.staged && decide (outcome ≠ .done), wipe := .deleteCurated }
  | .deleteCurated =>
      some { scene with
        readable := scene.readable && decide (outcome ≠ .done)
        intact := scene.intact && decide (outcome = .failed)
        wipe := .deleteState }
  | .deleteState =>
      if outcome = .done then some { scene with sync := { scene.sync with watermark := none }, wipe := .deleteRuns }
      else none
  | .deleteRuns =>
      if outcome = .done then some { scene with wipe := .finished, attempt := none, ended := true }
      else some { scene with wipe := .finished }
  | .finished => none

/-- The op starts, for the first time or again.  A registered table whose metadata
is gone counts as missing; its data files are not looked at. -/
def begin (scene : Scene δ) : Option (Scene δ) :=
  if scene.ended = true ∨ scene.attempt.isSome = true then none
  else some { scene with attempt := some {
    tick := .loaded (scene.sync.table.isSome && scene.readable), looked := scene.wipe, read := scene.wipe } }

/-- The op raises; there are no more retries at some point.  What the attempt has
merged by then stays merged. -/
def fail (scene : Scene δ) : Scene δ :=
  match scene.retries with
  | 0 => { scene with attempt := none, ended := true }
  | retries + 1 => { scene with attempt := none, retries := retries }

/-- The batch that is merged next. -/
def nextBatch : Tick δ -> List (Version δ)
  | .merging window => window.pending.headD []
  | _ => []

/-- A table that is not found is created, with objects of its own. -/
def creates : Tick δ -> Bool
  | .loaded found => !found
  | _ => false

/-- A step of the attempt.  A batch is merged if the staging object and the objects
of the table are there; otherwise the attempt has to fail. -/
def stepRun (pipe : Pipeline δ) (scene : Scene δ) (attempt : Attempt δ) (event : TickEvent) :
    Option (Scene δ) :=
  let onward (next : World δ × Option (Tick δ)) : Scene δ := { scene with
    sync := next.1
    attempt := next.2.map (fun tick => { attempt with tick := tick }) }
  let step := (stepTick pipe scene.sync attempt.tick event).map onward
  match event with
  | .create => step.map (fun next => { next with
      readable := scene.readable || creates attempt.tick
      intact := scene.intact || creates attempt.tick })
  | .read => step.map (fun next =>
      { next with attempt := next.attempt.map (fun going => { going with read := scene.wipe }) })
  | .extract => step.map (fun next => { next with staged := true })
  | .merge =>
      if scene.staged = true ∧ scene.intact = true then
        step.map (fun next => { next with merged := scene.merged ++ nextBatch attempt.tick })
      else none
  | .advance => step.map (fun next => { next with ended := true })
  | .fail => some (fail scene)

/-- One step of the source, of the wipe or of the run, in any order: nothing makes
the wipe wait for a run, or a run for the wipe. -/
def step (pipe : Pipeline δ) (scene : Scene δ) : Event δ -> Option (Scene δ)
  | .source event => (stepSource scene.sync event).map (fun sync => { scene with sync := sync })
  | .wipe outcome => stepWipe scene outcome
  | .begin => begin scene
  | .run event => scene.attempt.bind (fun attempt => stepRun pipe scene attempt event)

/-- The version is not beyond the mark. -/
def AtOrBelow (mark : Mark) (version : Version δ) : Prop :=
  Exists fun value : Int => version.updatedAt = some value ∧
    ¬ mark.precedes { value := value, lastId := version.id }

/-- A watermark stands for a table that is registered and can be loaded, and every
version that was merged and is not beyond the watermark is in it and its files are
there, if it is still the one of the source. -/
def Scene.Consistent (scene : Scene δ) : Prop :=
  forall mark, scene.sync.watermark = some mark ->
    Exists fun lake : List (Version δ) => scene.sync.table = some lake ∧ scene.readable = true ∧
      forall version, version ∈ scene.merged -> AtOrBelow mark version ->
        (version ∈ lake ∧ scene.intact = true) ∨ version ∉ scene.sync.source

/-- Both have come to their end, so what is there is left there. -/
def Scene.Done (scene : Scene δ) : Prop :=
  scene.wipe = .finished ∧ scene.ended = true

/-- Once the watermarks are deleted, only an attempt that looked for its table after
the deletion of the objects and read the watermark after that of the watermarks
stores a new one.  It is a condition on the state before the step that stores. -/
def Fresh (scene : Scene δ) : Event δ -> Prop
  | .run .advance => scene.wipe.pastState = true -> forall attempt, scene.attempt = some attempt ->
      attempt.looked.pastObjects = true ∧ attempt.read.pastState = true
  | _ => True

variable {pipe : Pipeline δ}

/-- The version is in the window that a run without a watermark reads now.  Such a
run finds again whatever an earlier one has merged. -/
def FirstWindow (pipe : Pipeline δ) (now : Int) (version : Version δ) : Prop :=
  Exists fun window : Window => windowFor pipe.settings now Mark.initial pipe.kind = some window ∧
    window.selects watermarkColumns Mark.initial.lastId version = true

/-- What is above the lower bound of a window is above that of the first. -/
theorem above_first {wm : Mark} (ahead : ¬ wm.precedes Mark.initial) {shift value id : Int}
    (beyond : wm.value - shift < value ∨ (wm.value - shift = value ∧ wm.lastId < id)) :
    Mark.initial.value - shift < value ∨ (Mark.initial.value - shift = value ∧ Mark.initial.lastId < id) := by
  simp only [Mark.precedes, Mark.initial] at ahead ⊢
  omega

theorem bounded_first {wm : Mark} (ahead : ¬ wm.precedes Mark.initial) {shift hi later : Int}
    (grows : hi ≤ later) {window : Window} (planned : bounded (wm.value - shift) hi = some window)
    {version : Version δ} (selected : window.selects watermarkColumns wm.lastId version = true) :
    Exists fun first : Window => bounded (Mark.initial.value - shift) later = some first ∧
      first.selects watermarkColumns Mark.initial.lastId version = true := by
  rcases selects_iff.mp selected with ⟨value, carries, beyond, below⟩
  have less := below hi (hi_of_bounded planned)
  unfold bounded at planned
  split at planned
  · cases planned
  · cases planned
    have above := above_first ahead beyond
    have room : ¬ later ≤ Mark.initial.value - shift := by omega
    refine ⟨{ lo := Mark.initial.value - shift, hi := some later }, if_neg room, ?_⟩
    refine selects_iff.mpr ⟨value, carries, above, ?_⟩
    rintro other ⟨⟩
    exact lt_of_lt_of_le less grows

theorem unbounded_first {wm : Mark} (ahead : ¬ wm.precedes Mark.initial) {shift : Int} {version : Version δ}
    (selected : ({ lo := wm.value - shift, hi := none } : Window).selects watermarkColumns wm.lastId version = true) :
    ({ lo := Mark.initial.value - shift, hi := none } : Window).selects watermarkColumns
      Mark.initial.lastId version = true := by
  rcases selects_iff.mp selected with ⟨value, carries, beyond, _⟩
  refine selects_iff.mpr ⟨value, carries, above_first ahead beyond, ?_⟩
  rintro hi ⟨⟩

/-- Whatever a window holds is also in a first window that is read later. -/
theorem firstWindow_of_selects {now later : Int} (grows : now ≤ later) {wm : Mark}
    (ahead : ¬ wm.precedes Mark.initial) {window : Window}
    (planned : windowFor pipe.settings now wm pipe.kind = some window) {version : Version δ}
    (selected : window.selects watermarkColumns wm.lastId version = true) : FirstWindow pipe later version := by
  unfold FirstWindow
  cases kind : pipe.kind with
  | timestampTz =>
      rw [kind] at planned
      exact bounded_first ahead (Int.sub_le_sub_right grows _) planned selected
  | timestampNaive =>
      rw [kind] at planned
      cases planned
      exact ⟨_, rfl, unbounded_first ahead selected⟩
  | date =>
      rw [kind] at planned
      exact bounded_first ahead (Int.ediv_le_ediv (by decide) (Int.sub_le_sub_right grows _)) planned selected
  | integer =>
      rw [kind] at planned
      cases planned
      refine ⟨_, rfl, ?_⟩
      have shifted := @unbounded_first δ wm ahead 0 version
      rw [Int.sub_zero] at shifted
      exact shifted selected

theorem FirstWindow.later {now later : Int} {version : Version δ} (first : FirstWindow pipe now version)
    (grows : now ≤ later) : FirstWindow pipe later version := by
  rcases first with ⟨window, planned, selected⟩
  exact firstWindow_of_selects grows (by simp [Mark.precedes]) planned selected

/-! ## The invariant -/

/-- Source rows are numbered by their commits and have one version each. -/
structure Numbered (world : World δ) : Prop where
  numbered : forall version, version ∈ world.source -> version.commit < world.commits
  once : UniqueKeys Version.key world.source

/-- The table of an attempt that looked for it after the deletion.  It is registered
with metadata that is there, since whatever had lost it was created anew. -/
def Usable (scene : Scene δ) : Tick δ -> Prop
  | .loaded found => found = true -> scene.sync.table.isSome = true ∧ scene.readable = true
  | _ => scene.sync.table.isSome = true ∧ scene.readable = true

/-- A window that is being merged.  What is merged already and still current is
in the table or in the window, if the attempt began from nothing. -/
structure Gathering (pipe : Pipeline δ) (scene : Scene δ) (attempt : Attempt δ) (window : Merging δ) :
    Prop where
  asOf_le : window.asOf ≤ scene.sync.commits
  once : UniqueKeys Version.key window.pending.flatten
  old : forall version, version ∈ window.pending.flatten -> version.commit < window.asOf ∧
    FirstWindow pipe scene.sync.clock version
  before : forall version, version ∈ scene.merged -> version.commit < window.asOf
  agree : forall other, other ∈ window.pending.flatten -> forall version, version ∈ scene.sync.source ->
    version.id = other.id -> version.commit < window.asOf -> version = other
  kept : attempt.looked.pastObjects = true -> attempt.read.pastState = true ->
    forall version, version ∈ scene.merged -> version ∈ scene.sync.source ->
      (version ∈ scene.sync.lake ∧ scene.intact = true) ∨ version ∈ window.pending.flatten

/-- What is known of the attempt by how far it has come.  An attempt that reads
after the watermarks are gone begins from nothing. -/
def TickInvariant (pipe : Pipeline δ) (scene : Scene δ) (attempt : Attempt δ) : Tick δ -> Prop
  | .loaded _ => True
  | .created => True
  | .reading now wm => now ≤ scene.sync.clock ∧ ¬ wm.precedes Mark.initial ∧
      (attempt.read.pastState = true -> wm = Mark.initial) ∧
      forall version, version ∈ scene.merged -> FirstWindow pipe now version
  | .merging window => Gathering pipe scene attempt window

structure AttemptInvariant (pipe : Pipeline δ) (scene : Scene δ) (attempt : Attempt δ) : Prop where
  usable : attempt.looked.pastObjects = true -> scene.wipe.pastObjects = true ∧ Usable scene attempt.tick
  tick : TickInvariant pipe scene attempt attempt.tick

/-- What holds in every state.  The last field is the result for a run that has
ended; the others lead there. -/
structure Invariant (pipe : Pipeline δ) (scene : Scene δ) : Prop where
  source : Numbered scene.sync
  merged : forall version, version ∈ scene.merged -> version.commit < scene.sync.commits ∧
    FirstWindow pipe scene.sync.clock version
  ahead : scene.ended = false -> ¬ scene.sync.mark.precedes Mark.initial
  cleared : scene.wipe.pastState = true -> scene.ended = false -> scene.sync.watermark = none
  going : forall attempt, scene.attempt = some attempt -> scene.ended = false
  running : forall attempt, scene.attempt = some attempt -> AttemptInvariant pipe scene attempt
  consistent : scene.ended = true -> scene.wipe.pastState = true -> scene.Consistent

/-- Time passes and newer versions come; old ones do not come back.  Steps of the
source and of the run both do no more than this to it. -/
structure Moves (world after : World δ) : Prop where
  clock : world.clock ≤ after.clock
  commits : world.commits ≤ after.commits
  old : forall version, version ∈ after.source -> version.commit < world.commits -> version ∈ world.source

theorem Moves.of_eq {world after : World δ} (clock : after.clock = world.clock)
    (commits : after.commits = world.commits) (source : after.source = world.source) : Moves world after :=
  ⟨le_of_eq clock.symm, le_of_eq commits.symm, fun _ member _ => source ▸ member⟩

theorem moves_stepSource {world after : World δ} {event : SourceEvent δ} (source : Numbered world)
    (taken : stepSource world event = some after) :
    Moves world after ∧ Numbered after ∧ after.table = world.table ∧ after.watermark = world.watermark := by
  rcases stepSource_cases taken with ⟨clock, _, later, rfl⟩ | ⟨id, updatedAt, data, _, rfl⟩ | ⟨id, _, rfl⟩
  · exact ⟨⟨later, le_refl _, fun _ member _ => member⟩, ⟨source.numbered, source.once⟩, rfl, rfl⟩
  · refine ⟨⟨le_refl _, Nat.le_succ _, ?_⟩, ⟨?_, ?_⟩, rfl, rfl⟩
    · intro version member older
      rcases List.mem_append.mp member with rest | new
      · exact List.mem_of_mem_filter rest
      · rw [List.mem_singleton.mp new] at older
        exact absurd older (lt_irrefl _)
    · intro version member
      rcases List.mem_append.mp member with rest | new
      · exact Nat.lt_succ_of_lt (source.numbered version (List.mem_of_mem_filter rest))
      · rw [List.mem_singleton.mp new]
        exact Nat.lt_succ_self _
    · exact uniqueKeys_write source.once
        { id := id, updatedAt := updatedAt, commit := world.commits, data := data }
  · refine ⟨⟨le_refl _, Nat.le_succ _, fun _ member _ => List.mem_of_mem_filter member⟩, ⟨?_, ?_⟩, rfl, rfl⟩
    · exact fun version member => Nat.lt_succ_of_lt (source.numbered version (List.mem_of_mem_filter member))
    · exact source.once.sublist List.filter_sublist

variable {scene after : Scene δ} {attempt : Attempt δ}

/-- An attempt is not disturbed by the source, nor by the wipe once the objects
are deleted. -/
theorem AttemptInvariant.carry (inv : AttemptInvariant pipe scene attempt)
    (moves : Moves scene.sync after.sync) (merged : after.merged = scene.merged)
    (numbered : forall version, version ∈ scene.merged -> version.commit < scene.sync.commits)
    (objects : scene.wipe.pastObjects = true -> after.wipe.pastObjects = true ∧
      after.sync.table = scene.sync.table ∧ after.readable = scene.readable ∧ after.intact = scene.intact) :
    AttemptInvariant pipe after attempt := by
  refine ⟨fun looked => ?_, ?_⟩
  · rcases inv.usable looked with ⟨past, usable⟩
    rcases objects past with ⟨still, table, readable, _⟩
    refine ⟨still, ?_⟩
    unfold Usable at usable ⊢
    rw [table, readable]
    exact usable
  · have held := inv.tick
    cases tick : attempt.tick with
    | loaded found => trivial
    | created => trivial
    | reading now wm =>
        rw [tick] at held
        refine ⟨le_trans held.1 moves.clock, held.2.1, held.2.2.1, ?_⟩
        rw [merged]
        exact held.2.2.2
    | merging window =>
        rw [tick] at held
        refine ⟨le_trans held.asOf_le moves.commits, held.once, ?_, ?_, ?_, ?_⟩
        · intro version pending
          exact ⟨(held.old version pending).1, (held.old version pending).2.later moves.clock⟩
        · rw [merged]
          exact held.before
        · intro other pending version present same older
          exact held.agree other pending version
            (moves.old version present (lt_of_lt_of_le older held.asOf_le)) same older
        · intro looked read version wasMerged present
          rw [merged] at wasMerged
          rcases objects (inv.usable looked).1 with ⟨_, table, _, intact⟩
          have lake : after.sync.lake = scene.sync.lake := by
            unfold World.lake
            rw [table]
          rw [lake, intact]
          exact held.kept looked read version wasMerged
            (moves.old version present (numbered version wasMerged))

theorem Invariant.stepSource (inv : Invariant pipe scene) {event : SourceEvent δ} {sync : World δ}
    (taken : TableSync.stepSource scene.sync event = some sync) : Invariant pipe { scene with sync := sync } := by
  rcases moves_stepSource inv.source taken with ⟨moves, source, table, watermark⟩
  refine ⟨source, ?_, ?_, ?_, inv.going, ?_, ?_⟩
  · intro version member
    rcases inv.merged version member with ⟨number, first⟩
    exact ⟨lt_of_lt_of_le number moves.commits, first.later moves.clock⟩
  · intro going
    have mark : sync.mark = scene.sync.mark := by
      unfold World.mark
      rw [watermark]
    change ¬ sync.mark.precedes Mark.initial
    rw [mark]
    exact inv.ahead going
  · intro past going
    exact watermark.trans (inv.cleared past going)
  · intro attempt started
    exact (inv.running attempt started).carry moves rfl (fun version member => (inv.merged version member).1)
      (fun past => ⟨past, table, rfl, rfl⟩)
  · intro ended past mark stored
    rcases inv.consistent ended past mark (watermark.symm.trans stored) with ⟨lake, present, readable, holds⟩
    refine ⟨lake, table.trans present, readable, fun version member below => ?_⟩
    refine (holds version member below).imp_right (fun gone present => gone ?_)
    exact moves.old version present (inv.merged version member).1

/-- A step of the wipe before the objects of the tables are deleted. -/
theorem Invariant.early (inv : Invariant pipe scene) (objects : scene.wipe.pastObjects = false)
    (state : after.wipe.pastState = false) (source : Numbered after.sync) (moves : Moves scene.sync after.sync)
    (watermark : after.sync.watermark = scene.sync.watermark) (merged : after.merged = scene.merged)
    (going : after.attempt = scene.attempt) (ended : after.ended = scene.ended) : Invariant pipe after := by
  have numbered : forall version, version ∈ scene.merged -> version.commit < scene.sync.commits :=
    fun version member => (inv.merged version member).1
  have mark : after.sync.mark = scene.sync.mark := by
    unfold World.mark
    rw [watermark]
  refine ⟨source, ?_, ?_, ?_, ?_, ?_, ?_⟩
  · intro version member
    rw [merged] at member
    rcases inv.merged version member with ⟨number, first⟩
    exact ⟨lt_of_lt_of_le number moves.commits, first.later moves.clock⟩
  · rw [ended, mark]
    exact inv.ahead
  · intro past
    cases state.symm.trans past
  · rw [going, ended]
    exact inv.going
  · intro attempt started
    rw [going] at started
    refine (inv.running attempt started).carry moves merged numbered ?_
    intro past
    cases objects.symm.trans past
  · intro _ past
    cases state.symm.trans past

theorem Invariant.stepWipe (inv : Invariant pipe scene) {outcome : Outcome}
    (taken : WipeRace.stepWipe scene outcome = some after) : Invariant pipe after := by
  have numbered : forall version, version ∈ scene.merged -> version.commit < scene.sync.commits :=
    fun version member => (inv.merged version member).1
  unfold WipeRace.stepWipe at taken
  cases stage : scene.wipe with
  | dropTables =>
      simp only [stage] at taken
      cases taken
      exact inv.early (congrArg WipeStage.pastObjects stage) rfl ⟨inv.source.numbered, inv.source.once⟩
        (Moves.of_eq rfl rfl rfl) rfl rfl rfl rfl
  | deleteRaw =>
      simp only [stage] at taken
      cases taken
      exact inv.early (congrArg WipeStage.pastObjects stage) rfl ⟨inv.source.numbered, inv.source.once⟩
        (Moves.of_eq rfl rfl rfl) rfl rfl rfl rfl
  | deleteCurated =>
      simp only [stage] at taken
      cases taken
      exact inv.early (congrArg WipeStage.pastObjects stage) rfl ⟨inv.source.numbered, inv.source.once⟩
        (Moves.of_eq rfl rfl rfl) rfl rfl rfl rfl
  | deleteState =>
      simp only [stage] at taken
      split at taken
      · cases taken
        refine ⟨⟨inv.source.numbered, inv.source.once⟩, inv.merged, ?_, fun _ _ => rfl, inv.going, ?_, ?_⟩
        · intro _
          simp [World.mark, Mark.precedes]
        · intro attempt started
          exact (inv.running attempt started).carry (Moves.of_eq rfl rfl rfl) rfl numbered
            (fun _ => ⟨rfl, rfl, rfl, rfl⟩)
        · rintro _ _ mark ⟨⟩
      · cases taken
  | deleteRuns =>
      have past : scene.wipe.pastState = true := by
        rw [stage]
        rfl
      simp only [stage] at taken
      split at taken
      · cases taken
        refine ⟨inv.source, inv.merged, ?_, ?_, ?_, ?_, ?_⟩
        · rintro ⟨⟩
        · rintro _ ⟨⟩
        · rintro attempt ⟨⟩
        · rintro attempt ⟨⟩
        · intro _ _ mark stored
          cases ended : scene.ended with
          | true => exact inv.consistent ended past mark stored
          | false =>
              have none := inv.cleared past ended
              cases none.symm.trans stored
      · cases taken
        refine ⟨inv.source, inv.merged, inv.ahead, fun _ => inv.cleared past, inv.going, ?_, ?_⟩
        · intro attempt started
          exact (inv.running attempt started).carry (Moves.of_eq rfl rfl rfl) rfl numbered
            (fun _ => ⟨rfl, rfl, rfl, rfl⟩)
        · exact fun ended _ => inv.consistent ended past
  | finished =>
      simp only [stage] at taken
      cases taken

theorem Invariant.begin (inv : Invariant pipe scene) (taken : WipeRace.begin scene = some after) :
    Invariant pipe after := by
  unfold WipeRace.begin at taken
  split at taken
  · cases taken
  · rename_i idle
    have going : scene.ended = false := Bool.eq_false_iff.mpr (fun ended => idle (Or.inl ended))
    cases taken
    refine ⟨inv.source, inv.merged, inv.ahead, inv.cleared, fun _ _ => going, ?_, inv.consistent⟩
    rintro attempt ⟨⟩
    refine ⟨fun looked => ⟨looked, fun found => ?_⟩, trivial⟩
    exact Bool.and_eq_true_iff.mp found

/-- The op raises. -/
theorem Invariant.fail (inv : Invariant pipe scene) (started : scene.attempt = some attempt) :
    Invariant pipe (WipeRace.fail scene) := by
  have going := inv.going attempt started
  unfold WipeRace.fail
  cases scene.retries with
  | zero =>
      refine ⟨inv.source, inv.merged, ?_, ?_, ?_, ?_, ?_⟩
      · rintro ⟨⟩
      · rintro _ ⟨⟩
      · rintro attempt ⟨⟩
      · rintro attempt ⟨⟩
      · intro _ past mark stored
        cases (inv.cleared past going).symm.trans stored
  | succ retries =>
      refine ⟨inv.source, inv.merged, inv.ahead, inv.cleared, ?_, ?_, inv.consistent⟩
      · rintro attempt ⟨⟩
      · rintro attempt ⟨⟩

/-- A step after which the attempt goes on, with the watermark as it was. -/
theorem Invariant.onward (inv : Invariant pipe scene) (started : scene.attempt = some attempt)
    {next : Attempt δ} (source : Numbered after.sync) (wipe : after.wipe = scene.wipe)
    (ended : after.ended = scene.ended) (watermark : after.sync.watermark = scene.sync.watermark)
    (merged : forall version, version ∈ after.merged -> version.commit < after.sync.commits ∧
      FirstWindow pipe after.sync.clock version)
    (continues : after.attempt = some next) (running : AttemptInvariant pipe after next) :
    Invariant pipe after := by
  have going := inv.going attempt started
  have mark : after.sync.mark = scene.sync.mark := by
    unfold World.mark
    rw [watermark]
  refine ⟨source, merged, ?_, ?_, ?_, ?_, ?_⟩
  · intro _
    rw [mark]
    exact inv.ahead going
  · intro past _
    rw [watermark]
    exact inv.cleared (wipe ▸ past) going
  · intro other _
    exact ended.trans going
  · intro other same
    cases continues.symm.trans same
    exact running
  · intro contrary
    cases (ended.trans going).symm.trans contrary

/-- The table is created if it was not found. -/
theorem Invariant.create (inv : Invariant pipe scene) (started : scene.attempt = some attempt)
    (taken : stepRun pipe scene attempt .create = some after) : Invariant pipe after := by
  rcases attempt with ⟨tick, looked, read⟩
  cases tick with
  | loaded found =>
      cases taken
      rcases createTable_eq scene.sync found with ⟨table, _, created⟩
      have same : Numbered (scene.sync.createTable found) := by
        rw [created]
        exact ⟨inv.source.numbered, inv.source.once⟩
      refine inv.onward started same rfl rfl ?_ ?_ rfl ⟨fun past => ?_, trivial⟩
      · rw [created]
      · rw [created]
        exact inv.merged
      · rcases (inv.running _ started).usable past with ⟨gone, usable⟩
        refine ⟨gone, ?_⟩
        cases found with
        | true =>
            rcases usable rfl with ⟨present, readable⟩
            refine ⟨present, ?_⟩
            change (scene.readable || false) = true
            rw [readable]
            rfl
        | false => exact ⟨rfl, Bool.or_true _⟩
  | created => cases taken
  | reading now wm => cases taken
  | merging window => cases taken

/-- The watermark that is read after the deletion is the default. -/
theorem Invariant.read (inv : Invariant pipe scene) (started : scene.attempt = some attempt)
    (taken : stepRun pipe scene attempt .read = some after) : Invariant pipe after := by
  have going := inv.going attempt started
  rcases attempt with ⟨tick, looked, read⟩
  cases tick with
  | created =>
      cases taken
      refine inv.onward started inv.source rfl rfl rfl inv.merged rfl
        ⟨(inv.running _ started).usable, le_refl _, inv.ahead going, ?_, ?_⟩
      · exact fun past => World.mark_eq_initial (inv.cleared past going)
      · exact fun version member => (inv.merged version member).2
  | loaded found => cases taken
  | reading now wm => cases taken
  | merging window => cases taken

/-- The window that is read after the deletion holds what was merged before. -/
theorem Invariant.extract (inv : Invariant pipe scene) (started : scene.attempt = some attempt)
    (taken : stepRun pipe scene attempt .extract = some after) : Invariant pipe after := by
  rcases attempt with ⟨tick, looked, read⟩
  cases tick with
  | reading now wm =>
      cases taken
      rcases (inv.running _ started).tick with ⟨before, ahead, fresh, first⟩
      have pending : (extractWindow pipe scene.sync now wm).pending.flatten =
          (runIncremental watermarkColumns pipe.settings pipe.kind now wm scene.sync.source).rows :=
        Splitting.flatten_batches _ _
      refine inv.onward started ⟨inv.source.numbered, inv.source.once⟩ rfl rfl rfl inv.merged rfl
        ⟨(inv.running _ started).usable, le_refl _, ?_, ?_, ?_, ?_, ?_⟩
      · rw [pending]
        exact uniqueKeys_runIncremental inv.source.once
      · intro version listed
        rw [pending] at listed
        rcases mem_runIncremental.mp listed with ⟨window, planned, present, selected⟩
        exact ⟨inv.source.numbered version present, firstWindow_of_selects before ahead planned selected⟩
      · exact fun version member => (inv.merged version member).1
      · intro other listed version present same _
        rw [pending] at listed
        rcases mem_runIncremental.mp listed with ⟨_, _, member, _⟩
        exact inv.source.once.eq_of_key present member (congrArg some same) rfl
      · intro _ past version member present
        rw [pending, fresh past]
        rcases first version member with ⟨window, planned, selected⟩
        exact Or.inr (mem_runIncremental.mpr ⟨window, planned, present, selected⟩)
  | loaded found => cases taken
  | created => cases taken
  | merging window => cases taken

theorem Invariant.merge (inv : Invariant pipe scene) (started : scene.attempt = some attempt)
    (taken : stepRun pipe scene attempt .merge = some after) : Invariant pipe after := by
  simp only [stepRun] at taken
  split at taken
  · rename_i there
    rcases Option.map_eq_some_iff.mp taken with ⟨middle, stepped, rfl⟩
    rcases Option.map_eq_some_iff.mp stepped with ⟨next, moved, rfl⟩
    rcases attempt with ⟨tick, looked, read⟩
    cases tick with
    | merging window =>
        have gathering : Gathering pipe scene _ window := (inv.running _ started).tick
        simp only [stepTick] at moved
        split at moved
        · rename_i batch rest lake pending present
          cases moved
          have parts : window.pending.flatten = batch ++ rest.flatten := by
            rw [pending, List.flatten_cons]
          have first : nextBatch (.merging window) = batch := by
            rw [nextBatch, pending]
            rfl
          have inBatch {version : Version δ} (member : version ∈ batch) : version ∈ window.pending.flatten := by
            rw [parts]
            exact List.mem_append_left _ member
          have merged : forall version, version ∈ scene.merged ++ nextBatch (.merging window) ->
              version.commit < window.asOf ∧ FirstWindow pipe scene.sync.clock version := by
            intro version member
            rcases List.mem_append.mp member with before | new
            · exact ⟨gathering.before version before, (inv.merged version before).2⟩
            · rw [first] at new
              exact gathering.old version (inBatch new)
          refine inv.onward started ⟨inv.source.numbered, inv.source.once⟩ rfl rfl rfl ?_ rfl
            ⟨fun past => ⟨((inv.running _ started).usable past).1, rfl, ((inv.running _ started).usable past).2.2⟩,
              gathering.asOf_le, ?_, ?_, ?_, ?_, ?_⟩
          · exact fun version member =>
              ⟨lt_of_lt_of_le (merged version member).1 gathering.asOf_le, (merged version member).2⟩
          · have once := gathering.once
            rw [parts] at once
            exact (uniqueKeys_append.mp once).2.1
          · intro version member
            refine gathering.old version ?_
            rw [parts]
            exact List.mem_append_right _ member
          · exact fun version member => (merged version member).1
          · intro other member
            refine gathering.agree other ?_
            rw [parts]
            exact List.mem_append_right _ member
          · intro past fresh version member current
            have held : version ∈ scene.sync.lake ∨ version ∈ window.pending.flatten := by
              rcases List.mem_append.mp member with before | new
              · exact (gathering.kept past fresh version before current).imp_left And.left
              · rw [first] at new
                exact Or.inr (inBatch new)
            have older := (merged version member).1
            have into := @mem_mergeInto_pending δ scene.sync window gathering.once version
              (fun other listed same => gathering.agree other listed version current same older)
              batch rest lake pending present
            rw [parts] at held
            rcases held with inLake | listed
            · exact Or.inl ⟨into (Or.inl inLake), there.2⟩
            · exact (List.mem_append.mp listed).imp (fun now => ⟨into (Or.inr now), there.2⟩) id
        · cases moved
    | loaded found => cases moved
    | created => cases moved
    | reading now wm => cases moved
  · cases taken

/-- The watermark is stored: either it is going to be deleted, or the attempt
began from nothing and has merged everything again. -/
theorem Invariant.advance (inv : Invariant pipe scene) (started : scene.attempt = some attempt)
    (fresh : scene.wipe.pastState = true -> attempt.looked.pastObjects = true ∧ attempt.read.pastState = true)
    (taken : stepRun pipe scene attempt .advance = some after) : Invariant pipe after := by
  simp only [stepRun] at taken
  rcases Option.map_eq_some_iff.mp taken with ⟨middle, stepped, rfl⟩
  rcases Option.map_eq_some_iff.mp stepped with ⟨next, moved, rfl⟩
  rcases attempt with ⟨tick, looked, read⟩
  cases tick with
  | merging window =>
      have gathering : Gathering pipe scene _ window := (inv.running _ started).tick
      simp only [stepTick] at moved
      split at moved
      · rename_i pending
        cases moved
        refine ⟨⟨inv.source.numbered, inv.source.once⟩, inv.merged, ?_, ?_, ?_, ?_, ?_⟩
        · rintro ⟨⟩
        · rintro _ ⟨⟩
        · rintro attempt ⟨⟩
        · rintro attempt ⟨⟩
        · intro _ past mark _
          rcases fresh past with ⟨table, state⟩
          rcases (inv.running _ started).usable table with ⟨_, present, readable⟩
          rcases Option.isSome_iff_exists.mp present with ⟨lake, registered⟩
          refine ⟨lake, registered, readable, fun version member _ => ?_⟩
          by_cases current : version ∈ scene.sync.source
          · rcases gathering.kept table state version member current with held | waiting
            · exact Or.inl ⟨World.lake_eq registered ▸ held.1, held.2⟩
            · rw [pending] at waiting
              cases waiting
          · exact Or.inr current
      · cases moved
  | loaded found => cases moved
  | created => cases moved
  | reading now wm => cases moved

theorem Invariant.step (inv : Invariant pipe scene) {event : Event δ} (fresh : Fresh scene event)
    (taken : WipeRace.step pipe scene event = some after) : Invariant pipe after := by
  cases event with
  | source event =>
      rcases Option.map_eq_some_iff.mp taken with ⟨sync, moved, rfl⟩
      exact inv.stepSource moved
  | wipe outcome => exact inv.stepWipe taken
  | begin => exact inv.begin taken
  | run event =>
      rcases Option.bind_eq_some_iff.mp taken with ⟨attempt, started, stepped⟩
      cases event with
      | create => exact inv.create started stepped
      | read => exact inv.read started stepped
      | extract => exact inv.extract started stepped
      | merge => exact inv.merge started stepped
      | advance => exact inv.advance started (fun past => fresh past attempt started) stepped
      | fail =>
          cases stepped
          exact inv.fail started

/-! ## Every interleaving -/

/-- What the wipe and the run find.  The versions merged so far came out of windows
that began at or above the default watermark. -/
structure Start (pipe : Pipeline δ) (scene : Scene δ) : Prop where
  wipe : scene.wipe = .dropTables
  idle : scene.attempt = none
  going : scene.ended = false
  source : Numbered scene.sync
  merged : forall version, version ∈ scene.merged -> version.commit < scene.sync.commits ∧
    FirstWindow pipe scene.sync.clock version
  ahead : ¬ scene.sync.mark.precedes Mark.initial

theorem Start.invariant (start : Start pipe scene) : Invariant pipe scene := by
  refine ⟨start.source, start.merged, fun _ => start.ahead, ?_, ?_, ?_, ?_⟩
  · rw [start.wipe]
    rintro ⟨⟩
  · rw [start.idle]
    rintro attempt ⟨⟩
  · rw [start.idle]
    rintro attempt ⟨⟩
  · rw [start.going]
    rintro ⟨⟩

/-- However the steps interleave, a watermark that is left stands for its table, if
no attempt from before the deletion stores one after it. -/
theorem wipe_leaves_consistent (pipe : Pipeline δ) (scene : Scene δ) (start : Start pipe scene)
    (events : List (Event δ)) (last : Scene δ) (fresh : Along (WipeRace.step pipe) Fresh scene events)
    (reached : Transition.run (WipeRace.step pipe) scene events = some last) (done : last.Done) :
    last.Consistent := by
  have inv := run_invariant (fun _ _ _ inv fresh taken => Invariant.step inv fresh taken)
    start.invariant fresh reached
  refine inv.consistent done.2 ?_
  rw [done.1]
  rfl

/-- A table with one row of second one, and another row of second five at the
source. -/
def sampleScene : Scene Nat :=
  let synced : Version Nat := { id := 2, updatedAt := some 1000000, commit := 0, data := 0 }
  { sync :=
      { clock := 10000000, commits := 2
        source := [synced, { id := 1, updatedAt := some 5000000, commit := 1, data := 0 }]
        table := some [synced], watermark := some { value := 1000000, lastId := 2 }
        boot := .notStarted, ticks := [], finished := [], lastRead := 0 }
    readable := true, intact := true, staged := false, merged := [synced],
    wipe := .dropTables, attempt := none, retries := 3
    ended := false }

/-- The attempt merges its window, the wipe deletes everything, and then the
attempt stores its watermark. -/
theorem watermark_outlives_table :
    Exists fun last : Scene Nat =>
      Transition.run (WipeRace.step samplePipeline) sampleScene
          [.begin, .run .create, .run .read, .run .extract, .run .merge, .wipe .done, .wipe .done,
            .wipe .done, .wipe .done, .run .advance, .wipe .done] = some last ∧
        last.Done ∧ last.sync.table = none ∧
        last.sync.watermark = some { value := 5000000, lastId := 1 } ∧ ¬ last.Consistent := by
  refine ⟨_, rfl, ⟨rfl, rfl⟩, rfl, rfl, fun consistent => ?_⟩
  rcases consistent _ rfl with ⟨lake, present, _⟩
  cases present

theorem start_sampleScene : Start samplePipeline sampleScene := by
  refine ⟨rfl, rfl, rfl, ⟨by decide, by decide⟩, ?_, by decide⟩
  intro version member
  rw [List.mem_singleton.mp member]
  exact ⟨by decide, _, rfl, by decide⟩

instance decidableFresh (scene : Scene δ) : (event : Event δ) -> Decidable (Fresh scene event)
  | .run .advance =>
      match started : scene.attempt with
      | none => isTrue (fun _ attempt same => by cases started.symm.trans same)
      | some attempt => decidable_of_iff (scene.wipe.pastState = true ->
          attempt.looked.pastObjects = true ∧ attempt.read.pastState = true)
            ⟨fun held past other same => by cases started.symm.trans same; exact held past,
              fun held past => held past attempt started⟩
  | .source _ => isTrue trivial
  | .wipe _ => isTrue trivial
  | .begin => isTrue trivial
  | .run .create => isTrue trivial
  | .run .read => isTrue trivial
  | .run .extract => isTrue trivial
  | .run .merge => isTrue trivial
  | .run .fail => isTrue trivial

/-- An attempt that comes too late for its table is retried from nothing. -/
theorem retried_from_nothing :
    Exists fun last : Scene Nat =>
      Transition.run (WipeRace.step samplePipeline) sampleScene
          [.begin, .run .create, .run .read, .run .extract, .wipe .done, .wipe .done, .wipe .done, .wipe .done,
            .run .fail, .begin, .run .create, .run .read, .run .extract, .run .merge, .run .advance,
            .wipe .done] = some last ∧
        last.sync.watermark = some { value := 5000000, lastId := 1 } ∧ last.Consistent := by
  refine ⟨_, rfl, rfl, ?_⟩
  exact wipe_leaves_consistent samplePipeline sampleScene start_sampleScene
    [.begin, .run .create, .run .read, .run .extract, .wipe .done, .wipe .done, .wipe .done, .wipe .done,
      .run .fail, .begin, .run .create, .run .read, .run .extract, .run .merge, .run .advance, .wipe .done]
    _ (by decide) rfl ⟨rfl, rfl⟩

end WipeRace
end WarehouseSync

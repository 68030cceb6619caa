import WarehouseSync.Orchestration.SteadyState

namespace WarehouseSync
namespace TableSync

open Incremental KeyedRows Transition Watermarks

/-!
# Sequential ticks over an integer watermark column

There is no overlap and no upper bound here, so the pair of value and id is all
that decides whether a version is in the next window.  A version that is not in
the lake lies above the stored watermark.  It stays so if every write lies above
the stored watermark and above the one a tick is about to store; a write that
repeats the last value with a smaller id does not.
-/

universe u

variable {δ : Type u}

/-- The version lies above the mark, as the query compares it: by its value, and
within one value by its id. -/
def Over (mark : Mark) (version : Version δ) : Prop :=
  Exists fun value : Int => version.updatedAt = some value ∧
    mark.precedes { value := value, lastId := version.id }

/-- Only positive values are followed, since the first window of all starts at 0 and
would leave the others out. -/
def Positive (version : Version δ) : Prop :=
  Exists fun value : Int => version.updatedAt = some value ∧ 0 < value

theorem Positive.over_initial {version : Version δ} (positive : Positive version) :
    Over Mark.initial version := by
  rcases positive with ⟨value, carries, above⟩
  exact ⟨value, carries, Or.inl above⟩

/-- The window of an integer column holds exactly the versions above the mark. -/
theorem mem_runIncremental_integer {settings : IncrementalSettings} {now : Int} {wm : Mark}
    {rows : List (Version δ)} {version : Version δ} :
    version ∈ (runIncremental watermarkColumns settings .integer now wm rows).rows ↔
      version ∈ rows ∧ Over wm version := by
  rw [mem_runIncremental]
  constructor
  · rintro ⟨window, ⟨⟩, member, selected⟩
    rcases selects_iff.mp selected with ⟨value, carries, above, _⟩
    exact ⟨member, value, carries, above⟩
  · rintro ⟨member, value, carries, above⟩
    refine ⟨_, rfl, member, selects_iff.mpr ⟨value, carries, above, ?_⟩⟩
    rintro hi ⟨⟩

/-- A tick that has read its window.  Integer columns have neither an overlap nor an
upper bound, so everything above the mark that was visible is in the window. -/
structure CountedWindow (world : World δ) (window : Merging δ) : Prop where
  asOf_le : window.asOf ≤ world.commits
  after : forall tick, tick ∈ world.finished -> tick.asOf ≤ window.asOf
  old : forall version, version ∈ world.source -> version.commit < window.asOf ->
    Over world.mark version -> version ∈ world.lake ∨ version ∈ window.pending.flatten
  agree : forall other, other ∈ window.pending.flatten -> forall version, version ∈ world.source ->
    version.id = other.id -> version.commit < window.asOf -> version = other
  late : forall version, version ∈ world.source -> window.asOf ≤ version.commit -> Positive version ->
    Over world.mark version ∧ Over window.watermark version
  once : UniqueKeys Version.key window.pending.flatten

/-- What is known of a tick by how far it has come.  Until it has read, this is only
that the stored mark is still the one it works with. -/
def CountedTick (world : World δ) : Tick δ -> Prop
  | .loaded found => found = true ∨ world.lake = []
  | .created => True
  | .reading _ wm => wm = world.mark
  | .merging window => CountedWindow world window

/-- The state apart from the tick that is under way.  A step of the source keeps
this part by itself. -/
structure CountedIdle (world : World δ) : Prop where
  numbered : forall version, version ∈ world.source -> version.commit < world.commits
  once : UniqueKeys Version.key world.source
  covered : forall version, version ∈ world.source -> Positive version ->
    version ∈ world.lake ∨ Over world.mark version
  logged : forall tick, tick ∈ world.finished -> tick.asOf ≤ world.commits ∧
    forall version, version ∈ world.source -> version.commit < tick.asOf -> Positive version ->
      version ∈ world.lake

/-- The invariant of a run with ticks one by one: what was visible to a successful
tick is in the lake, and the rest is still above the mark. -/
structure Counted (world : World δ) : Prop extends CountedIdle world where
  running : forall tick, tick ∈ world.ticks -> CountedTick world tick
  single : world.ticks.length ≤ 1

/-- A write lies above the stored watermark and above the one that a tick under way
is going to store.  The second part is needed because the tick has read already, and
stores its mark only later. -/
def WritesAbove (world : World δ) (id : Int) (updatedAt : Option Int) : Prop :=
  forall value : Int, updatedAt = some value -> 0 < value ->
    world.mark.precedes { value := value, lastId := id } ∧
      forall tick, tick ∈ world.ticks -> forall window, tick = .merging window ->
        window.watermark.precedes { value := value, lastId := id }

variable {pipe : Pipeline δ} {world after : World δ}

/-- The source loses rows, or gains one that is committed now. -/
theorem Counted.source (inv : Counted world) {source : List (Version δ)} {commits : Nat} {clock : Int}
    (later : world.commits ≤ commits)
    (rows : forall version, version ∈ source -> version ∈ world.source ∨
      (version.commit = world.commits ∧ version.commit < commits ∧
        WritesAbove world version.id version.updatedAt))
    (once : UniqueKeys Version.key source) :
    Counted { world with clock := clock, commits := commits, source := source } := by
  have fresh : forall version : Version δ, WritesAbove world version.id version.updatedAt ->
      Positive version -> Over world.mark version ∧
        forall window, Tick.merging window ∈ world.ticks -> Over window.watermark version := by
    rintro version above ⟨value, carries, positive⟩
    rcases above value carries positive with ⟨overMark, overPending⟩
    exact ⟨⟨value, carries, overMark⟩, fun window member => ⟨value, carries, overPending _ member _ rfl⟩⟩
  refine { numbered := ?_, once := once, covered := ?_, logged := ?_, running := ?_, single := inv.single }
  · intro version member
    rcases rows version member with old | ⟨_, number, _⟩
    · exact lt_of_lt_of_le (inv.numbered version old) later
    · exact number
  · intro version member positive
    rcases rows version member with old | ⟨_, _, above⟩
    · exact inv.covered version old positive
    · exact Or.inr (fresh version above positive).1
  · intro tick member
    refine ⟨le_trans (inv.logged tick member).1 later, fun version present visible positive => ?_⟩
    rcases rows version present with old | ⟨now, _, _⟩
    · exact (inv.logged tick member).2 version old visible positive
    · exact absurd ((inv.logged tick member).1) (not_le_of_gt (now ▸ visible))
  · intro tick member
    have running := inv.running tick member
    cases tick with
    | loaded found => exact running
    | created => trivial
    | reading now wm => exact running
    | merging window =>
        refine ⟨le_trans running.asOf_le later, running.after, ?_, ?_, ?_, running.once⟩
        · intro version present visible
          rcases rows version present with old | ⟨now, _, _⟩
          · exact running.old version old visible
          · exact absurd running.asOf_le (not_le_of_gt (now ▸ visible))
        · intro other pending version present same visible
          rcases rows version present with old | ⟨now, _, _⟩
          · exact running.agree other pending version old same visible
          · exact absurd running.asOf_le (not_le_of_gt (now ▸ visible))
        · intro version present unseen positive
          rcases rows version present with old | ⟨_, _, above⟩
          · exact running.late version old unseen positive
          · exact ⟨(fresh version above positive).1, (fresh version above positive).2 window member⟩

theorem Counted.stepSource (inv : Counted world) {event : SourceEvent δ}
    (allowed : forall id updatedAt data, event = .write id updatedAt data -> WritesAbove world id updatedAt)
    (taken : TableSync.stepSource world event = some after) : Counted after := by
  rcases stepSource_cases taken with ⟨_, _, _, rfl⟩ | ⟨id, updatedAt, data, rfl, rfl⟩ | ⟨id, _, rfl⟩
  · exact inv.source (le_refl _) (fun _ member => Or.inl member) inv.once
  · have once := uniqueKeys_write inv.once
      { id := id, updatedAt := updatedAt, commit := world.commits, data := data }
    refine inv.source (Nat.le_succ _) ?_ once
    intro version member
    rcases List.mem_append.mp member with old | new
    · exact Or.inl (List.mem_of_mem_filter old)
    · rw [List.mem_singleton.mp new]
      exact Or.inr ⟨rfl, Nat.lt_succ_self _, allowed id updatedAt data rfl⟩
  · exact inv.source (Nat.le_succ _) (fun _ member => Or.inl (List.mem_of_mem_filter member))
      (inv.once.sublist List.filter_sublist)

theorem CountedIdle.without (inv : CountedIdle world) : Counted { world with ticks := [] } :=
  { numbered := inv.numbered, once := inv.once, covered := inv.covered, logged := inv.logged
    running := List.forall_mem_nil _, single := Nat.zero_le 1 }

theorem CountedIdle.withTick (inv : CountedIdle world) {tick : Tick δ} (running : CountedTick world tick) :
    Counted { world with ticks := [tick] } := by
  refine { numbered := inv.numbered, once := inv.once, covered := inv.covered, logged := inv.logged
           running := ?_, single := le_refl 1 }
  intro other member
  rw [List.mem_singleton.mp member]
  cases tick with
  | loaded found => exact running
  | created => trivial
  | reading now wm => exact running
  | merging window =>
      exact ⟨running.asOf_le, running.after, running.old, running.agree, running.late, running.once⟩

theorem CountedIdle.createTable (inv : CountedIdle world) {found : Bool}
    (running : CountedTick world (.loaded found)) : CountedIdle (world.createTable found) := by
  rcases createTable_keeps running with ⟨table, created, kept⟩
  rw [created]
  refine ⟨inv.numbered, inv.once, ?_, ?_⟩
  · exact fun version member positive => (inv.covered version member positive).imp_left (kept version)
  · intro tick member
    refine ⟨(inv.logged tick member).1, fun version present visible positive => ?_⟩
    exact kept version ((inv.logged tick member).2 version present visible positive)

theorem CountedIdle.extract (inv : CountedIdle world) (kind : pipe.kind = .integer) (now : Int) :
    CountedWindow { world with lastRead := world.clock } (extractWindow pipe world now world.mark) := by
  have pending : (extractWindow pipe world now world.mark).pending.flatten =
      (runIncremental watermarkColumns pipe.settings .integer now world.mark world.source).rows := by
    rw [← kind]
    exact Splitting.flatten_batches _ _
  refine ⟨le_refl _, fun tick member => (inv.logged tick member).1, ?_, ?_, ?_, ?_⟩
  · intro version member _ beyond
    rw [pending]
    exact Or.inr (mem_runIncremental_integer.mpr ⟨member, beyond⟩)
  · intro other listed version member same _
    rw [pending] at listed
    have present := (mem_runIncremental_integer.mp listed).1
    exact inv.once.eq_of_key member present (congrArg some same) rfl
  · intro version member unseen
    exact absurd (inv.numbered version member) (not_lt_of_ge unseen)
  · rw [pending]
    exact uniqueKeys_runIncremental inv.once

theorem CountedWindow.mem_lake {window : Merging δ} (running : CountedWindow world window)
    {batch : List (Version δ)} {rest : List (List (Version δ))} {lake : List (Version δ)}
    (pending : window.pending = batch :: rest) (present : world.table = some lake) {version : Version δ}
    (member : version ∈ world.source) (visible : version.commit < window.asOf)
    (merged : version ∈ world.lake ∨ version ∈ batch) : version ∈ mergeInto lake batch :=
  mem_mergeInto_pending running.once
    (fun other listed same => running.agree other listed version member same visible) pending present merged

theorem CountedIdle.merge (inv : CountedIdle world) {window : Merging δ}
    (running : CountedWindow world window) {batch : List (Version δ)} {rest : List (List (Version δ))}
    {lake : List (Version δ)} (pending : window.pending = batch :: rest) (present : world.table = some lake) :
    CountedIdle { world with table := some (mergeInto lake batch) } ∧
      CountedWindow { world with table := some (mergeInto lake batch) } { window with pending := rest } := by
  have whole : window.pending.flatten = batch ++ rest.flatten := by
    rw [pending, List.flatten_cons]
  constructor
  · refine ⟨inv.numbered, inv.once, ?_, ?_⟩
    · intro version member positive
      by_cases visible : version.commit < window.asOf
      · rcases inv.covered version member positive with merged | beyond
        · exact Or.inl (running.mem_lake pending present member visible (Or.inl merged))
        · exact Or.inr beyond
      · exact Or.inr (running.late version member (not_lt.mp visible) positive).1
    · intro tick member
      refine ⟨(inv.logged tick member).1, fun version listed visible positive => ?_⟩
      have merged := (inv.logged tick member).2 version listed visible positive
      exact running.mem_lake pending present listed
        (lt_of_lt_of_le visible (running.after tick member)) (Or.inl merged)
  · refine ⟨running.asOf_le, running.after, ?_, ?_, running.late, ?_⟩
    · intro version member visible beyond
      rcases running.old version member visible beyond with merged | waiting
      · exact Or.inl (running.mem_lake pending present member visible (Or.inl merged))
      · rcases List.mem_append.mp (whole ▸ waiting) with now | later
        · exact Or.inl (running.mem_lake pending present member visible (Or.inr now))
        · exact Or.inr later
    · intro other listed
      exact running.agree other (whole ▸ List.mem_append_right _ listed)
    · exact (uniqueKeys_append.mp (whole ▸ running.once)).2.1

/-- A finished window leaves nothing behind that was visible to it. -/
theorem CountedIdle.mem_lake_of_finished (inv : CountedIdle world) {window : Merging δ}
    (running : CountedWindow world window) (pending : window.pending = []) {version : Version δ}
    (member : version ∈ world.source) (visible : version.commit < window.asOf)
    (positive : Positive version) : version ∈ world.lake := by
  rcases inv.covered version member positive with merged | beyond
  · exact merged
  · rcases running.old version member visible beyond with merged | waiting
    · exact merged
    · rw [pending] at waiting
      cases waiting

theorem CountedIdle.advance (inv : CountedIdle world) {window : Merging δ}
    (running : CountedWindow world window) (pending : window.pending = []) :
    CountedIdle { world with
      watermark := some (Mark.advance world.watermark window.watermark)
      finished := { asOf := window.asOf, hi := window.hi } :: world.finished } := by
  refine ⟨inv.numbered, inv.once, ?_, ?_⟩
  · intro version member positive
    change version ∈ world.lake ∨ Over (Mark.advance world.watermark window.watermark) version
    have mark : Mark.advance world.watermark window.watermark = window.watermark ∨
        Mark.advance world.watermark window.watermark = world.mark := Mark.advance_cases _ _
    rcases mark with new | kept
    · rw [new]
      by_cases visible : version.commit < window.asOf
      · exact Or.inl (inv.mem_lake_of_finished running pending member visible positive)
      · exact Or.inr (running.late version member (not_lt.mp visible) positive).2
    · rw [kept]
      exact inv.covered version member positive
  · intro tick member
    rcases List.mem_cons.mp member with rfl | earlier
    · exact ⟨running.asOf_le, fun version listed visible positive =>
        inv.mem_lake_of_finished running pending listed visible positive⟩
    · exact inv.logged tick earlier

theorem Counted.stepTick (inv : Counted world) (kind : pipe.kind = .integer) {index : Nat}
    {event : TickEvent} (taken : step pipe world (.tick index event) = some after) : Counted after := by
  rcases Option.bind_eq_some_iff.mp taken with ⟨tick, found, stepped⟩
  rcases Option.map_eq_some_iff.mp stepped with ⟨next, moved, rfl⟩
  rcases single_tick inv.single found with ⟨alone, rfl⟩
  have running := inv.running tick (alone ▸ List.mem_singleton_self tick)
  have idle := inv.toCountedIdle
  rw [alone]
  rcases stepTick_cases moved with ⟨found, rfl, rfl⟩ | ⟨rfl, rfl⟩ | ⟨now, wm, rfl, rfl⟩ |
    ⟨window, batch, rest, lake, rfl, pending, present, rfl⟩ | ⟨window, rfl, pending, rfl⟩ | rfl
  · exact (idle.createTable running).withTick trivial
  · exact idle.withTick rfl
  · cases running
    have read : CountedIdle { world with lastRead := world.clock } :=
      ⟨idle.numbered, idle.once, idle.covered, idle.logged⟩
    exact read.withTick (idle.extract kind now)
  · rcases idle.merge running pending present with ⟨merged, left⟩
    exact merged.withTick left
  · exact (idle.advance running pending).without
  · exact idle.without

theorem Counted.beginTick (inv : Counted world) (none : world.ticks = [])
    (taken : step pipe world .beginTick = some after) : Counted after := by
  cases taken
  rw [none]
  apply inv.toCountedIdle.withTick
  unfold CountedTick World.lake
  cases world.table with
  | none => exact Or.inr rfl
  | some lake => exact Or.inl rfl

/-! ## The run -/

/-- Only ticks run, one after the other, and no write falls behind a mark.  It is
what a sequence of the database gives when its values become visible in their order.
-/
def InSequence (world : World δ) : Event δ -> Prop
  | .source (.write id updatedAt _) => WritesAbove world id updatedAt
  | .source _ => True
  | .boot _ => False
  | .beginTick => world.ticks = []
  | .tick _ _ => True

theorem Counted.step (kind : pipe.kind = .integer) (world : World δ) (event : Event δ) (after : World δ)
    (inv : Counted world) (allowed : InSequence world event)
    (taken : TableSync.step pipe world event = some after) : Counted after := by
  cases event with
  | boot event => exact allowed.elim
  | beginTick => exact inv.beginTick allowed taken
  | tick index event => exact inv.stepTick kind taken
  | source event =>
      apply inv.stepSource _ taken
      rintro id updatedAt data rfl
      exact allowed

/-- No watermark is stored and nothing is running.  The lake may have rows, whatever
they are. -/
structure Unsynced (world : World δ) : Prop where
  numbered : forall version, version ∈ world.source -> version.commit < world.commits
  once : UniqueKeys Version.key world.source
  watermark : world.watermark = none
  ticks : world.ticks = []
  finished : world.finished = []

theorem Unsynced.counted (start : Unsynced world) : Counted world := by
  have mark : world.mark = Mark.initial := World.mark_eq_initial start.watermark
  refine { numbered := start.numbered, once := start.once, covered := ?_, logged := ?_, running := ?_
           single := ?_ }
  · intro version _ positive
    rw [mark]
    exact Or.inr positive.over_initial
  · rw [start.finished]
    exact List.forall_mem_nil _
  · rw [start.ticks]
    exact List.forall_mem_nil _
  · rw [start.ticks]
    exact Nat.zero_le 1

/-- After any such run, the current version of every source row with a positive
value that some successful tick could see is in the lake.  There is no second chance
for a version that comes late, because integer windows do not overlap. -/
theorem integer_ticks_lose_nothing (pipe : Pipeline δ) (world last : World δ) (events : List (Event δ))
    (kind : pipe.kind = .integer) (start : Unsynced world)
    (sequence : Along (step pipe) InSequence world events)
    (reached : run (step pipe) world events = some last) :
    forall tick, tick ∈ last.finished -> forall version, version ∈ last.source ->
      version.commit < tick.asOf -> Positive version -> version ∈ last.lake := by
  have inv : Counted last := run_invariant (Counted.step kind) start.counted sequence reached
  intro tick member
  exact (inv.logged tick member).2

instance decidableMerging (tick : Tick δ) (test : Merging δ -> Prop) [DecidablePred test] :
    Decidable (forall window, tick = .merging window -> test window) :=
  match tick with
  | .merging window => decidable_of_iff (test window)
      ⟨fun held _ same => Tick.merging.inj same ▸ held, fun held => held window rfl⟩
  | .loaded _ | .created | .reading _ _ => isTrue (fun _ same => by cases same)

instance decidableWritesAbove (world : World δ) (id : Int) (updatedAt : Option Int) :
    Decidable (WritesAbove world id updatedAt) :=
  match updatedAt with
  | none => isTrue (fun _ carries => by cases carries)
  | some value =>
      decidable_of_iff (0 < value -> world.mark.precedes { value := value, lastId := id } ∧
          forall tick, tick ∈ world.ticks -> forall window, tick = .merging window ->
            window.watermark.precedes { value := value, lastId := id })
        ⟨fun above _ carries => Option.some.inj carries ▸ above, fun above => above value rfl⟩

instance decidableInSequence (world : World δ) : forall event : Event δ, Decidable (InSequence world event)
  | .source (.write id updatedAt _) => decidableWritesAbove world id updatedAt
  | .source (.advanceClock _) => isTrue trivial
  | .source (.delete _) => isTrue trivial
  | .boot _ => isFalse (fun allowed => allowed)
  | .beginTick => inferInstanceAs (Decidable (world.ticks = []))
  | .tick _ _ => isTrue trivial

def sequencePipeline : Pipeline Nat :=
  { samplePipeline with kind := .integer }

theorem sampleWorld_unsynced : Unsynced sampleWorld := by
  refine ⟨?_, by decide, rfl, rfl, rfl⟩
  intro version member
  rw [List.mem_singleton.mp member]
  decide

/-- A tick, then a write of the last value, and another tick that merges this
many batches. -/
def repeatedValue (id : Int) (batches : Nat) : List (Event Nat) :=
  wholeTick 1 ++ [.source (.write id (some 5000000) 7)] ++ wholeTick batches

theorem greater_id_is_merged : Exists fun last : World Nat =>
    run (step sequencePipeline) sampleWorld (repeatedValue 2 1) = some last ∧
      forall tick, tick ∈ last.finished -> forall version, version ∈ last.source ->
        version.commit < tick.asOf -> Positive version -> version ∈ last.lake := by
  have finished : (run (step sequencePipeline) sampleWorld (repeatedValue 2 1)).isSome = true := by decide
  rcases Option.isSome_iff_exists.mp finished with ⟨last, reached⟩
  exact ⟨last, reached, integer_ticks_lose_nothing sequencePipeline sampleWorld last (repeatedValue 2 1) rfl
    sampleWorld_unsynced (by decide) reached⟩

/-- The same row is updated again within the value it had: its new version is
not above the watermark, and no tick ever sees it. -/
theorem repeated_value_is_lost : Unsynced sampleWorld ∧
    Exists fun last : World Nat => run (step sequencePipeline) sampleWorld (repeatedValue 1 0) = some last ∧
      Exists fun tick => tick ∈ last.finished ∧ Exists fun version => version ∈ last.source ∧
        version.commit < tick.asOf ∧ version.updatedAt = some 5000000 ∧ version ∉ last.lake := by
  have lost : (run (step sequencePipeline) sampleWorld (repeatedValue 1 0)).map (fun last =>
      decide (Exists fun tick => tick ∈ last.finished ∧ Exists fun version => version ∈ last.source ∧
        version.commit < tick.asOf ∧ version.updatedAt = some 5000000 ∧ version ∉ last.lake)) =
          some true := by decide
  rcases Option.map_eq_some_iff.mp lost with ⟨last, reached, found⟩
  exact ⟨sampleWorld_unsynced, last, reached, of_decide_eq_true found⟩

end TableSync
end WarehouseSync

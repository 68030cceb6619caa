import WarehouseSync.Orchestration.TableSync

namespace WarehouseSync
namespace TableSync

open Incremental KeyedRows Transition Watermarks

/-!
# Sequential ticks lose nothing

The stored watermark lags behind every version that is not in the lake: such a
version lies above the lower bound of the next window.  It stays so because a
late commit is late by less than the overlap, counted from the last moment at
which a watermark was read off the source.  While a tick is under way, its new
watermark lags behind the versions that were committed since it read its window,
and the older versions of its window are in the lake or still to be merged.
-/

universe u

variable {δ : Type u}

/-- The version lies above the lower bound that windows have from this mark, so the
next window has it if its upper bound does not leave it out. -/
def Above (overlap : Int) (mark : Mark) (version : Version δ) : Prop :=
  Exists fun value : Int => version.updatedAt = some value ∧
    (mark.value - overlap < value ∨ (mark.value - overlap = value ∧ mark.lastId < version.id))

/-- It does so by its value alone, so it stays above the bound whatever id is stored
with the mark. -/
def Late (overlap : Int) (mark : Mark) (version : Version δ) : Prop :=
  Exists fun value : Int => version.updatedAt = some value ∧ mark.value - overlap < value

/-- The version is below the upper bound, if the window has one.  A version at or
above it is left to a later tick, and is not lost by this one. -/
def Below (hi : Option Int) (version : Version δ) : Prop :=
  forall bound value, hi = some bound -> version.updatedAt = some value -> value < bound

theorem Late.above {overlap : Int} {mark : Mark} {version : Version δ} (late : Late overlap mark version) :
    Above overlap mark version := by
  rcases late with ⟨value, carries, beyond⟩
  exact ⟨value, carries, Or.inl beyond⟩

/-- The two kinds whose values are times that the overlap is subtracted from. -/
def TimeKind (kind : WatermarkKind) : Prop :=
  kind = .timestampTz ∨ kind = .timestampNaive

/-- What lies above the mark and below the upper bound is in the window. -/
theorem window_of_above {settings : IncrementalSettings} {kind : WatermarkKind} (time : TimeKind kind)
    {now : Int} {wm : Mark} {version : Version δ} (above : Above settings.overlap wm version)
    (below : Below (upperBound settings now kind) version) :
    Exists fun window : Window => windowFor settings now wm kind = some window ∧
      window.selects watermarkColumns wm.lastId version = true := by
  rcases above with ⟨value, carries, beyond⟩
  rcases time with rfl | rfl
  · have bound : value < now - settings.gap := below _ value rfl carries
    have room : ¬ now - settings.gap ≤ wm.value - settings.overlap := by
      rcases beyond with above | ⟨same, _⟩
      · omega
      · omega
    refine ⟨{ lo := wm.value - settings.overlap, hi := some (now - settings.gap) }, if_neg room, ?_⟩
    refine selects_iff.mpr ⟨value, carries, beyond, ?_⟩
    rintro hi ⟨⟩
    exact bound
  · refine ⟨{ lo := wm.value - settings.overlap, hi := none }, rfl, ?_⟩
    refine selects_iff.mpr ⟨value, carries, beyond, ?_⟩
    rintro hi ⟨⟩

/-! ## The invariant -/

/-- The mark keeps the distance to the last read that late commits need.  The safety
gap of a column with a time zone is what provides it. -/
def Lags (slack : Int) (world : World δ) (mark : Mark) : Prop :=
  mark.value ≤ 0 ∨ mark.value + slack ≤ world.lastRead

/-- A tick that has read its window.  The versions that were visible to it and those
that came later are told apart by their commits, and what the tick is about to do is
right for both. -/
structure WindowInvariant (overlap slack : Int) (world : World δ) (window : Merging δ) : Prop where
  asOf_le : window.asOf ≤ world.commits
  after : forall tick, tick ∈ world.finished -> tick.asOf ≤ window.asOf
  old : forall version, version ∈ world.source -> version.commit < window.asOf ->
    Above overlap world.mark version -> Below window.hi version ->
    version ∈ world.lake ∨ version ∈ window.pending.flatten
  agree : forall other, other ∈ window.pending.flatten -> forall version, version ∈ world.source ->
    version.id = other.id -> version.commit < window.asOf -> version = other
  late : forall version, version ∈ world.source -> window.asOf ≤ version.commit ->
    Late overlap world.mark version ∧ Late overlap window.watermark version
  once : UniqueKeys Version.key window.pending.flatten
  bounded : window.watermark = world.mark ∨
    forall hi, window.hi = some hi -> window.watermark.value ≤ hi
  lags : Lags slack world window.watermark

/-- What is known of a tick by how far it has come.  The mark that it has read is
still the stored one, because there is no other tick. -/
def TickInvariant (overlap slack : Int) (world : World δ) : Tick δ -> Prop
  | .loaded found => found = true ∨ world.lake = []
  | .created => True
  | .reading now wm => wm = world.mark ∧ now ≤ world.clock
  | .merging window => WindowInvariant overlap slack world window

/-- What the source always satisfies.  No version is from the future, as the clock
goes forward and a write cannot be later than it. -/
structure SourceInvariant (world : World δ) : Prop where
  numbered : forall version, version ∈ world.source -> version.commit < world.commits
  once : UniqueKeys Version.key world.source
  stamped : forall version, version ∈ world.source -> Exists fun value : Int =>
    version.updatedAt = some value ∧ 0 ≤ value ∧ value ≤ world.clock
  read : world.lastRead ≤ world.clock

/-- The invariant of a steady run.  Its heart is `covered`: a version that is not in
the lake is above the bound of the next window, whatever the ticks did or failed to
do. -/
structure SyncInvariant (overlap slack : Int) (world : World δ) : Prop where
  source : SourceInvariant world
  covered : forall version, version ∈ world.source ->
    version ∈ world.lake ∨ Above overlap world.mark version
  lags : Lags slack world world.mark
  logged : forall tick, tick ∈ world.finished -> tick.asOf ≤ world.commits ∧
    forall version, version ∈ world.source -> version.commit < tick.asOf -> Below tick.hi version ->
      version ∈ world.lake
  running : forall tick, tick ∈ world.ticks -> TickInvariant overlap slack world tick
  single : world.ticks.length ≤ 1

/-- A write that is late by less than slack and overlap, counted from the last read
of the source.  The invariant is kept by any such write; which writes are such
depends on the kind of the column. -/
def Admitted (overlap slack : Int) (world : World δ) (updatedAt : Option Int) : Prop :=
  Exists fun value : Int => updatedAt = some value ∧ 0 ≤ value ∧ value ≤ world.clock ∧
    world.lastRead < value + slack + overlap

theorem Lags.late {overlap slack : Int} (positive : 0 < overlap) {world : World δ} {mark : Mark}
    (lags : Lags slack world mark) {version : Version δ}
    (admitted : Admitted overlap slack world version.updatedAt) : Late overlap mark version := by
  rcases admitted with ⟨value, carries, atLeast, _, recent⟩
  refine ⟨value, carries, ?_⟩
  rcases lags with initial | behind
  · omega
  · omega

/-- Only four fields of the world are looked at. -/
theorem SourceInvariant.congr {world after : World δ} (inv : SourceInvariant world)
    (source : after.source = world.source) (commits : after.commits = world.commits)
    (clock : after.clock = world.clock) (lastRead : after.lastRead = world.lastRead) :
    SourceInvariant after := by
  refine ⟨?_, source ▸ inv.once, ?_, ?_⟩
  · rw [source, commits]
    exact inv.numbered
  · rw [source, clock]
    exact inv.stamped
  · rw [lastRead, clock]
    exact inv.read

section Source

variable {overlap slack : Int} {world : World δ}

/-- A step that removes source rows, or leaves them, and lets time pass. -/
theorem SyncInvariant.shrink (inv : SyncInvariant overlap slack world) {after : World δ}
    (rows : forall version, version ∈ after.source -> version ∈ world.source)
    (source : SourceInvariant after) (clock : world.clock ≤ after.clock)
    (commits : world.commits ≤ after.commits) (table : after.table = world.table)
    (watermark : after.watermark = world.watermark) (ticks : after.ticks = world.ticks)
    (finished : after.finished = world.finished) (lastRead : after.lastRead = world.lastRead) :
    SyncInvariant overlap slack after := by
  have lake : after.lake = world.lake := by
    unfold World.lake
    rw [table]
  have mark : after.mark = world.mark := by
    unfold World.mark
    rw [watermark]
  have lags : forall mark : Mark, Lags slack world mark -> Lags slack after mark := by
    unfold Lags
    rw [lastRead]
    exact fun _ held => held
  refine ⟨source, ?_, ?_, ?_, ?_, ticks ▸ inv.single⟩
  · intro version member
    rw [lake, mark]
    exact inv.covered version (rows version member)
  · exact mark ▸ lags _ inv.lags
  · intro tick member
    rw [finished] at member
    rcases inv.logged tick member with ⟨before, merged⟩
    refine ⟨le_trans before commits, fun version present => ?_⟩
    rw [lake]
    exact merged version (rows version present)
  · intro tick member
    rw [ticks] at member
    have running := inv.running tick member
    cases tick with
    | loaded found =>
        unfold TickInvariant
        rw [lake]
        exact running
    | created => trivial
    | reading now wm =>
        unfold TickInvariant
        rw [mark]
        exact ⟨running.1, le_trans running.2 clock⟩
    | merging window =>
        refine ⟨le_trans running.asOf_le commits, ?_, ?_, ?_, ?_, running.once, ?_, lags _ running.lags⟩
        · rw [finished]
          exact running.after
        · intro version present
          rw [lake, mark]
          exact running.old version (rows version present)
        · intro other pending version present
          exact running.agree other pending version (rows version present)
        · intro version present
          rw [mark]
          exact running.late version (rows version present)
        · rw [mark]
          exact running.bounded

theorem SourceInvariant.advanceClock (source : SourceInvariant world) {clock : Int}
    (later : world.clock ≤ clock) : SourceInvariant { world with clock := clock } := by
  refine ⟨source.numbered, source.once, ?_, le_trans source.read later⟩
  intro version member
  rcases source.stamped version member with ⟨value, carries, atLeast, before⟩
  exact ⟨value, carries, atLeast, le_trans before later⟩

theorem SyncInvariant.advanceClock (inv : SyncInvariant overlap slack world) {clock : Int}
    (later : world.clock ≤ clock) : SyncInvariant overlap slack { world with clock := clock } :=
  inv.shrink (fun _ member => member) (inv.source.advanceClock later) later (le_refl _) rfl rfl rfl rfl rfl

theorem SourceInvariant.delete (source : SourceInvariant world) (id : Int) :
    SourceInvariant { world with
      commits := world.commits + 1
      source := world.source.filter (fun version => decide (version.id ≠ id)) } := by
  refine ⟨?_, source.once.sublist List.filter_sublist, ?_, source.read⟩
  · intro version member
    exact Nat.lt_succ_of_lt (source.numbered version (List.mem_of_mem_filter member))
  · intro version member
    exact source.stamped version (List.mem_of_mem_filter member)

theorem SyncInvariant.delete (inv : SyncInvariant overlap slack world) (id : Int) :
    SyncInvariant overlap slack { world with
      commits := world.commits + 1
      source := world.source.filter (fun version => decide (version.id ≠ id)) } :=
  inv.shrink (fun _ member => List.mem_of_mem_filter member) (inv.source.delete id) (le_refl _)
    (Nat.le_succ _) rfl rfl rfl rfl rfl

theorem SourceInvariant.insert (source : SourceInvariant world) {version : Version δ}
    (fresh : forall other, other ∈ world.source -> other.id ≠ version.id)
    (number : version.commit < world.commits) (stamped : Exists fun value : Int =>
      version.updatedAt = some value ∧ 0 ≤ value ∧ value ≤ world.clock) :
    SourceInvariant { world with source := world.source ++ [version] } := by
  refine ⟨?_, ?_, ?_, source.read⟩
  · intro other member
    rcases List.mem_append.mp member with old | new
    · exact source.numbered other old
    · exact List.mem_singleton.mp new ▸ number
  · exact uniqueKeys_insert source.once fresh
  · intro other member
    rcases List.mem_append.mp member with old | new
    · exact source.stamped other old
    · exact List.mem_singleton.mp new ▸ stamped

/-- The new version is later than every window that was read, and above every
mark that is stored or about to be. -/
theorem SyncInvariant.insert (inv : SyncInvariant overlap slack world) (positive : 0 < overlap)
    {version : Version δ} (source : SourceInvariant { world with source := world.source ++ [version] })
    (newest : forall tick window, tick ∈ world.ticks -> tick = .merging window ->
      window.asOf ≤ version.commit)
    (logged : forall tick, tick ∈ world.finished -> tick.asOf ≤ version.commit)
    (admitted : Admitted overlap slack world version.updatedAt) :
    SyncInvariant overlap slack { world with source := world.source ++ [version] } := by
  have late : forall mark : Mark, Lags slack world mark -> Late overlap mark version :=
    fun mark lags => lags.late positive admitted
  refine ⟨source, ?_, inv.lags, ?_, ?_, inv.single⟩
  · intro other member
    rcases List.mem_append.mp member with old | new
    · exact inv.covered other old
    · rw [List.mem_singleton.mp new]
      exact Or.inr (late _ inv.lags).above
  · intro tick member
    refine ⟨(inv.logged tick member).1, fun other present visible below => ?_⟩
    rcases List.mem_append.mp present with old | new
    · exact (inv.logged tick member).2 other old visible below
    · rw [List.mem_singleton.mp new] at visible
      exact absurd visible (not_lt_of_ge (logged tick member))
  · intro tick member
    have running := inv.running tick member
    cases tick with
    | loaded found => exact running
    | created => trivial
    | reading now wm => exact running
    | merging window =>
        have recent := newest _ window member rfl
        refine ⟨running.asOf_le, running.after, ?_, ?_, ?_, running.once, running.bounded, running.lags⟩
        · intro other present visible
          rcases List.mem_append.mp present with old | new
          · exact running.old other old visible
          · rw [List.mem_singleton.mp new] at visible
            exact absurd visible (not_lt_of_ge recent)
        · intro pending listed other present same visible
          rcases List.mem_append.mp present with old | new
          · exact running.agree pending listed other old same visible
          · rw [List.mem_singleton.mp new] at visible
            exact absurd visible (not_lt_of_ge recent)
        · intro other present unseen
          rcases List.mem_append.mp present with old | new
          · exact running.late other old unseen
          · rw [List.mem_singleton.mp new]
            exact ⟨late _ inv.lags, late _ running.lags⟩

theorem SourceInvariant.write (source : SourceInvariant world) (id : Int) {updatedAt : Option Int}
    (data : δ) (stamped : Exists fun value : Int => updatedAt = some value ∧ 0 ≤ value ∧ value ≤ world.clock) :
    SourceInvariant { world with
      commits := world.commits + 1
      source := world.source.filter (fun version => decide (version.id ≠ id)) ++
        [{ id := id, updatedAt := updatedAt, commit := world.commits, data := data }] } :=
  (source.delete id).insert (fun _ member => of_decide_eq_true (List.mem_filter.mp member).2)
    (Nat.lt_succ_self _) stamped

theorem SyncInvariant.write (inv : SyncInvariant overlap slack world) (positive : 0 < overlap) {id : Int}
    {updatedAt : Option Int} {data : δ} {after : World δ} (admitted : Admitted overlap slack world updatedAt)
    (taken : stepSource world (.write id updatedAt data) = some after) :
    SyncInvariant overlap slack after := by
  cases taken
  have stamped : Exists fun value : Int => updatedAt = some value ∧ 0 ≤ value ∧ value ≤ world.clock := by
    rcases admitted with ⟨value, carries, atLeast, before, _⟩
    exact ⟨value, carries, atLeast, before⟩
  refine (inv.delete id).insert positive (inv.source.write id data stamped) ?_
    (fun tick member => (inv.logged tick member).1) admitted
  rintro tick window member rfl
  exact WindowInvariant.asOf_le (inv.running _ member)

end Source

section Ticks

variable {pipe : Pipeline δ} {overlap slack : Int} {world : World δ}

theorem single_tick (single : world.ticks.length ≤ 1) {index : Nat} {tick : Tick δ}
    (found : world.ticks[index]? = some tick) : world.ticks = [tick] ∧ index = 0 := by
  rcases List.getElem?_eq_some_iff.mp found with ⟨inside, same⟩
  have first : index = 0 := by omega
  subst first
  cases listed : world.ticks with
  | nil => simp [listed] at found
  | cons head rest =>
      have alone : rest = [] := by
        rw [listed, List.length_cons] at single
        exact List.length_eq_zero_iff.mp (by omega)
      subst alone
      simp only [listed, List.getElem_cons_zero] at same
      exact ⟨by rw [same], rfl⟩

/-- The rest of the invariant, with the one tick put aside.  Steps of a tick are
proved against it, so that the tick itself only has to be looked at once. -/
structure IdleInvariant (overlap slack : Int) (world : World δ) : Prop where
  source : SourceInvariant world
  covered : forall version, version ∈ world.source ->
    version ∈ world.lake ∨ Above overlap world.mark version
  lags : Lags slack world world.mark
  logged : forall tick, tick ∈ world.finished -> tick.asOf ≤ world.commits ∧
    forall version, version ∈ world.source -> version.commit < tick.asOf -> Below tick.hi version ->
      version ∈ world.lake

theorem SyncInvariant.idle (inv : SyncInvariant overlap slack world) : IdleInvariant overlap slack world :=
  ⟨inv.source, inv.covered, inv.lags, inv.logged⟩

theorem IdleInvariant.without (inv : IdleInvariant overlap slack world) :
    SyncInvariant overlap slack { world with ticks := [] } :=
  ⟨inv.source.congr rfl rfl rfl rfl, inv.covered, inv.lags, inv.logged, List.forall_mem_nil _,
    Nat.zero_le 1⟩

theorem IdleInvariant.withTick (inv : IdleInvariant overlap slack world) {tick : Tick δ}
    (running : TickInvariant overlap slack world tick) :
    SyncInvariant overlap slack { world with ticks := [tick] } := by
  refine ⟨inv.source.congr rfl rfl rfl rfl, inv.covered, inv.lags, inv.logged, ?_, le_refl _⟩
  intro other member
  rw [List.mem_singleton.mp member]
  cases tick with
  | loaded found => exact running
  | created => trivial
  | reading now wm => exact running
  | merging window =>
      exact ⟨running.asOf_le, running.after, running.old, running.agree, running.late, running.once,
        running.bounded, running.lags⟩

/-- Creating the table when there was none loses nothing. -/
theorem IdleInvariant.createTable (inv : IdleInvariant overlap slack world) {found : Bool}
    (running : TickInvariant overlap slack world (.loaded found)) :
    IdleInvariant overlap slack (world.createTable found) := by
  rcases createTable_keeps running with ⟨table, created, kept⟩
  rw [created]
  refine ⟨inv.source.congr rfl rfl rfl rfl, ?_, inv.lags, ?_⟩
  · exact fun version member => (inv.covered version member).imp_left (kept version)
  · intro tick member
    refine ⟨(inv.logged tick member).1, fun version present visible below => ?_⟩
    exact kept version ((inv.logged tick member).2 version present visible below)

/-- Reading the window at a later clock. -/
theorem IdleInvariant.extract (inv : IdleInvariant overlap slack world) :
    IdleInvariant overlap slack { world with lastRead := world.clock } := by
  have source : SourceInvariant { world with lastRead := world.clock } :=
    ⟨inv.source.numbered, inv.source.once, inv.source.stamped, le_refl _⟩
  refine ⟨source, inv.covered, ?_, inv.logged⟩
  rcases inv.lags with initial | behind
  · exact Or.inl initial
  · exact Or.inr (le_trans behind inv.source.read)

/-- How much of the safety gap late commits may use up.  A naive column has no upper
bound from the clock, and so no gap to use. -/
def Room (settings : IncrementalSettings) (slack : Int) (kind : WatermarkKind) : Prop :=
  (kind = .timestampTz ∧ slack ≤ settings.gap) ∨ (kind = .timestampNaive ∧ slack = 0)

theorem Room.time {settings : IncrementalSettings} {kind : WatermarkKind}
    (room : Room settings slack kind) : TimeKind kind :=
  room.imp And.left And.left

/-- The new watermark is the old one, or keeps its distance to the clock. -/
theorem lags_runIncremental (inv : IdleInvariant overlap slack world) {settings : IncrementalSettings}
    {kind : WatermarkKind} (room : Room settings slack kind) {now : Int} (before : now ≤ world.clock) :
    Lags slack { world with lastRead := world.clock }
      (runIncremental watermarkColumns settings kind now world.mark world.source).watermark := by
  rcases watermark_runIncremental with same | ⟨window, planned, bound | ⟨version, member, selected, carries⟩⟩
  · rw [same]
    exact inv.extract.lags
  · rw [hi_of_windowFor planned] at bound
    rcases room with ⟨rfl, slackGap⟩ | ⟨rfl, _⟩
    · have value := Option.some.inj bound
      exact Or.inr (by change _ + slack ≤ world.clock; omega)
    · cases bound
  · rcases room with ⟨rfl, slackGap⟩ | ⟨rfl, slackZero⟩
    · rcases selects_iff.mp selected with ⟨value, valued, _, below⟩
      have less := below _ (hi_of_windowFor planned)
      have same : value = _ := Option.some.inj (valued.symm.trans carries)
      exact Or.inr (by change _ + slack ≤ world.clock; omega)
    · rcases inv.source.stamped version member with ⟨value, valued, _, stamped⟩
      have same : value = _ := Option.some.inj (valued.symm.trans carries)
      exact Or.inr (by change _ + slack ≤ world.clock; omega)

theorem windowInvariant_extract (inv : IdleInvariant pipe.settings.overlap slack world)
    (room : Room pipe.settings slack pipe.kind) {now : Int} (before : now ≤ world.clock) :
    WindowInvariant pipe.settings.overlap slack { world with lastRead := world.clock }
      (extractWindow pipe world now world.mark) := by
  have pending : (extractWindow pipe world now world.mark).pending.flatten =
      (runIncremental watermarkColumns pipe.settings pipe.kind now world.mark world.source).rows :=
    Splitting.flatten_batches _ _
  refine ⟨le_refl _, fun tick member => (inv.logged tick member).1, ?_, ?_, ?_, ?_, ?_, ?_⟩
  · intro version member _ above below
    rcases window_of_above room.time above below with ⟨window, planned, selected⟩
    rw [pending]
    exact Or.inr (mem_runIncremental.mpr ⟨window, planned, member, selected⟩)
  · intro other listed version member same _
    rw [pending] at listed
    rcases mem_runIncremental.mp listed with ⟨_, _, present, _⟩
    exact inv.source.once.eq_of_key member present (congrArg some same) rfl
  · intro version member unseen
    exact absurd (inv.source.numbered version member) (not_lt_of_ge unseen)
  · rw [pending]
    exact uniqueKeys_runIncremental inv.source.once
  · rcases watermark_runIncremental with same | ⟨window, planned, bound | ⟨version, _, selected, carries⟩⟩
    · exact Or.inl same
    · refine Or.inr fun hi upper => ?_
      rw [hi_of_windowFor planned] at bound
      have same : hi = _ := Option.some.inj (upper.symm.trans bound)
      exact le_of_eq same.symm
    · refine Or.inr fun hi upper => ?_
      rcases selects_iff.mp selected with ⟨value, valued, _, below⟩
      have less := below hi ((hi_of_windowFor planned).trans upper)
      have same : value = _ := Option.some.inj (valued.symm.trans carries)
      exact le_of_lt (same ▸ less)
  · exact lags_runIncremental inv room before

/-- A version that was visible to the window stays in the lake when a batch of
it is merged. -/
theorem mem_lake_merge {window : Merging δ} (running : WindowInvariant overlap slack world window)
    {batch : List (Version δ)} {rest : List (List (Version δ))} {lake : List (Version δ)}
    (pending : window.pending = batch :: rest) (present : world.table = some lake)
    {version : Version δ} (member : version ∈ world.source) (visible : version.commit < window.asOf)
    (merged : version ∈ world.lake ∨ version ∈ batch) : version ∈ mergeInto lake batch :=
  mem_mergeInto_pending running.once
    (fun other listed same => running.agree other listed version member same visible) pending present merged

theorem IdleInvariant.merge (inv : IdleInvariant overlap slack world) {window : Merging δ}
    (running : WindowInvariant overlap slack world window) {batch : List (Version δ)}
    {rest : List (List (Version δ))} {lake : List (Version δ)} (pending : window.pending = batch :: rest)
    (present : world.table = some lake) :
    IdleInvariant overlap slack { world with table := some (mergeInto lake batch) } ∧
      WindowInvariant overlap slack { world with table := some (mergeInto lake batch) }
        { window with pending := rest } := by
  have whole : window.pending.flatten = batch ++ rest.flatten := by
    rw [pending, List.flatten_cons]
  constructor
  · refine ⟨inv.source.congr rfl rfl rfl rfl, ?_, inv.lags, ?_⟩
    · intro version member
      by_cases visible : version.commit < window.asOf
      · rcases inv.covered version member with merged | above
        · exact Or.inl (mem_lake_merge running pending present member visible (Or.inl merged))
        · exact Or.inr above
      · exact Or.inr (running.late version member (not_lt.mp visible)).1.above
    · intro tick member
      refine ⟨(inv.logged tick member).1, fun version listed visible below => ?_⟩
      have merged := (inv.logged tick member).2 version listed visible below
      exact mem_lake_merge running pending present listed
        (lt_of_lt_of_le visible (running.after tick member)) (Or.inl merged)
  · refine ⟨running.asOf_le, running.after, ?_, ?_, running.late, ?_, running.bounded, running.lags⟩
    · intro version member visible above below
      rcases running.old version member visible above below with merged | waiting
      · exact Or.inl (mem_lake_merge running pending present member visible (Or.inl merged))
      · rcases List.mem_append.mp (whole ▸ waiting) with now | later
        · exact Or.inl (mem_lake_merge running pending present member visible (Or.inr now))
        · exact Or.inr later
    · intro other listed
      exact running.agree other (whole ▸ List.mem_append_right _ listed)
    · exact (uniqueKeys_append.mp (whole ▸ running.once)).2.1

/-- A finished window covers what was visible to it up to its upper bound. -/
theorem mem_lake_of_finished (inv : IdleInvariant overlap slack world) {window : Merging δ}
    (running : WindowInvariant overlap slack world window) (pending : window.pending = [])
    {version : Version δ} (member : version ∈ world.source) (visible : version.commit < window.asOf)
    (below : Below window.hi version) : version ∈ world.lake := by
  rcases inv.covered version member with merged | above
  · exact merged
  · rcases running.old version member visible above below with merged | waiting
    · exact merged
    · rw [pending] at waiting
      cases waiting

/-- What a finished window did not merge lies above its new watermark. -/
theorem above_of_finished (inv : IdleInvariant overlap slack world) (positive : 0 < overlap)
    {window : Merging δ} (running : WindowInvariant overlap slack world window)
    (pending : window.pending = []) {version : Version δ} (member : version ∈ world.source) :
    version ∈ world.lake ∨ Above overlap window.watermark version := by
  by_cases visible : version.commit < window.asOf
  · rcases inv.covered version member with merged | above
    · exact Or.inl merged
    · by_cases below : Below window.hi version
      · exact Or.inl (mem_lake_of_finished inv running pending member visible below)
      · rcases running.bounded with same | bound
        · exact Or.inr (same ▸ above)
        · unfold Below at below
          push Not at below
          rcases below with ⟨hi, value, upper, carries, beyond⟩
          have low := bound hi upper
          exact Or.inr ⟨value, carries, Or.inl (by omega)⟩
  · exact Or.inr (running.late version member (not_lt.mp visible)).2.above

theorem IdleInvariant.advance (inv : IdleInvariant overlap slack world) (positive : 0 < overlap)
    {window : Merging δ} (running : WindowInvariant overlap slack world window)
    (pending : window.pending = []) :
    IdleInvariant overlap slack { world with
      watermark := some (Mark.advance world.watermark window.watermark)
      finished := { asOf := window.asOf, hi := window.hi } :: world.finished } := by
  have mark : Mark.advance world.watermark window.watermark = window.watermark ∨
      Mark.advance world.watermark window.watermark = world.mark := Mark.advance_cases _ _
  refine ⟨inv.source.congr rfl rfl rfl rfl, ?_, ?_, ?_⟩
  · intro version member
    change version ∈ world.lake ∨ Above overlap (Mark.advance world.watermark window.watermark) version
    rcases mark with new | kept
    · rw [new]
      exact above_of_finished inv positive running pending member
    · rw [kept]
      exact inv.covered version member
  · change Lags slack world (Mark.advance world.watermark window.watermark)
    rcases mark with new | kept
    · rw [new]
      exact running.lags
    · rw [kept]
      exact inv.lags
  · intro tick member
    rcases List.mem_cons.mp member with rfl | earlier
    · exact ⟨running.asOf_le, fun version listed visible below =>
        mem_lake_of_finished inv running pending listed visible below⟩
    · exact inv.logged tick earlier

theorem SyncInvariant.stepTick (inv : SyncInvariant pipe.settings.overlap slack world)
    (positive : 0 < pipe.settings.overlap) (room : Room pipe.settings slack pipe.kind) {index : Nat}
    {event : TickEvent} {after : World δ} (taken : step pipe world (.tick index event) = some after) :
    SyncInvariant pipe.settings.overlap slack after := by
  rcases Option.bind_eq_some_iff.mp taken with ⟨tick, found, stepped⟩
  rcases Option.map_eq_some_iff.mp stepped with ⟨next, moved, rfl⟩
  rcases single_tick inv.single found with ⟨alone, rfl⟩
  have running := inv.running tick (alone ▸ List.mem_singleton_self tick)
  have idle := inv.idle
  rw [alone]
  rcases stepTick_cases moved with ⟨found, rfl, rfl⟩ | ⟨rfl, rfl⟩ | ⟨now, wm, rfl, rfl⟩ |
    ⟨window, batch, rest, lake, rfl, pending, present, rfl⟩ | ⟨window, rfl, pending, rfl⟩ | rfl
  · exact (idle.createTable running).withTick trivial
  · exact idle.withTick ⟨rfl, le_refl _⟩
  · rcases running with ⟨rfl, before⟩
    exact idle.extract.withTick (windowInvariant_extract idle room before)
  · rcases idle.merge running pending present with ⟨merged, left⟩
    exact merged.withTick left
  · exact (idle.advance positive running pending).without
  · exact idle.without

theorem SyncInvariant.beginTick (inv : SyncInvariant overlap slack world) (none : world.ticks = [])
    {after : World δ} (taken : step pipe world .beginTick = some after) :
    SyncInvariant overlap slack after := by
  cases taken
  rw [none]
  apply inv.idle.withTick
  unfold TickInvariant World.lake
  cases world.table with
  | none => exact Or.inr rfl
  | some lake => exact Or.inl rfl

end Ticks

/-! ## The run -/

/-- How late a version may become visible, counted from its watermark value. -/
def lateness (pipe : Pipeline δ) : Int :=
  match pipe.kind with
  | .timestampTz => pipe.settings.gap + pipe.settings.overlap
  | _ => pipe.settings.overlap

/-- Only ticks run, one after the other.  A version with value `t` becomes
visible at a clock from `t` to `t` plus the lateness, after the instant of any
window that did not see it.  A naive column has a clock of its own, and since
its windows do not look at the time, that is the clock here. -/
def Steady (pipe : Pipeline δ) (world : World δ) : Event δ -> Prop
  | .source (.write _ updatedAt _) => Exists fun value : Int => updatedAt = some value ∧ 0 < value ∧
      value ≤ world.clock ∧ world.clock ≤ value + lateness pipe ∧ world.lastRead < world.clock
  | .source _ => True
  | .boot _ => False
  | .beginTick => world.ticks = []
  | .tick _ _ => True

instance decidableStamped (stamp : Option Int) (test : Int -> Prop) [DecidablePred test] :
    Decidable (Exists fun value : Int => stamp = some value ∧ test value) :=
  match stamp with
  | none => isFalse (fun ⟨_, carries, _⟩ => by cases carries)
  | some value => decidable_of_iff (test value)
      ⟨fun held => ⟨value, rfl, held⟩, fun ⟨_, carries, held⟩ => Option.some.inj carries ▸ held⟩

instance decidableSteady (pipe : Pipeline δ) (world : World δ) :
    forall event : Event δ, Decidable (Steady pipe world event)
  | .source (.write _ updatedAt _) => decidableStamped updatedAt _
  | .source (.advanceClock _) => isTrue trivial
  | .source (.delete _) => isTrue trivial
  | .boot _ => isFalse (fun allowed => allowed)
  | .beginTick => inferInstanceAs (Decidable (world.ticks = []))
  | .tick _ _ => isTrue trivial

/-- No watermark is stored and nothing is running.  The source may have rows, and
the lake whatever an earlier run has left. -/
structure Starts (world : World δ) : Prop where
  source : SourceInvariant world
  watermark : world.watermark = none
  ticks : world.ticks = []
  finished : world.finished = []

theorem Starts.inv {overlap slack : Int} (positive : 0 < overlap) {world : World δ} (start : Starts world) :
    SyncInvariant overlap slack world := by
  have mark : world.mark = Mark.initial := World.mark_eq_initial start.watermark
  refine ⟨start.source, ?_, ?_, ?_, ?_, ?_⟩
  · intro version member
    rcases start.source.stamped version member with ⟨value, carries, atLeast, _⟩
    rw [mark]
    refine Or.inr ⟨value, carries, Or.inl ?_⟩
    change 0 - overlap < value
    omega
  · rw [mark]
    exact Or.inl (le_refl _)
  · rw [start.finished]
    exact List.forall_mem_nil _
  · rw [start.ticks]
    exact List.forall_mem_nil _
  · rw [start.ticks]
    exact Nat.zero_le 1

/-- One step of a steady run keeps the invariant. -/
theorem SyncInvariant.steady {pipe : Pipeline δ} {slack : Int} (positive : 0 < pipe.settings.overlap)
    (room : Room pipe.settings slack pipe.kind) (late : lateness pipe = slack + pipe.settings.overlap)
    (world : World δ) (event : Event δ) (after : World δ)
    (inv : SyncInvariant pipe.settings.overlap slack world) (allowed : Steady pipe world event)
    (taken : step pipe world event = some after) : SyncInvariant pipe.settings.overlap slack after := by
  cases event with
  | boot event => exact allowed.elim
  | beginTick => exact inv.beginTick allowed taken
  | tick index event => exact inv.stepTick positive room taken
  | source event =>
      rcases stepSource_cases taken with ⟨clock, _, later, rfl⟩ | ⟨id, updatedAt, data, rfl, _⟩ | ⟨id, _, rfl⟩
      · exact inv.advanceClock later
      · rcases allowed with ⟨value, carries, positiveValue, before, inTime, unseen⟩
        have admitted : Admitted pipe.settings.overlap slack world updatedAt :=
          ⟨value, carries, by omega, before, by omega⟩
        exact inv.write positive admitted taken
      · exact inv.delete id

/-- After any steady run, the current version of every source row that some
successful tick could see below its upper bound is in the lake.  Ticks may fail at
any step, since the watermark only moves after a merge. -/
theorem sequential_ticks_lose_nothing (pipe : Pipeline δ) (world last : World δ) (events : List (Event δ))
    (time : TimeKind pipe.kind) (overlap : 0 < pipe.settings.overlapSeconds)
    (start : Starts world) (steady : Along (step pipe) (Steady pipe) world events)
    (reached : run (step pipe) world events = some last) :
    forall tick, tick ∈ last.finished -> forall version, version ∈ last.source ->
      version.commit < tick.asOf -> Below tick.hi version -> version ∈ last.lake := by
  have positive : 0 < pipe.settings.overlap := by
    unfold IncrementalSettings.overlap microsPerSecond
    omega
  have room : Exists fun slack : Int => Room pipe.settings slack pipe.kind ∧
      lateness pipe = slack + pipe.settings.overlap := by
    rcases time with zoned | naive
    · refine ⟨pipe.settings.gap, Or.inl ⟨zoned, le_refl _⟩, ?_⟩
      unfold lateness
      rw [zoned]
    · refine ⟨0, Or.inr ⟨naive, rfl⟩, ?_⟩
      unfold lateness
      rw [naive]
      exact (Int.zero_add _).symm
  rcases room with ⟨slack, room, late⟩
  have inv : SyncInvariant pipe.settings.overlap slack last :=
    run_invariant (SyncInvariant.steady positive room late) (start.inv positive) steady reached
  intro tick member
  exact (inv.logged tick member).2

/-- A version of second 9.2 that becomes visible 2.3 seconds later, below the
clock of the tick before. -/
def lateCommit : List (Event Nat) :=
  wholeTick 1 ++ [.source (.advanceClock 11500000), .source (.write 2 (some 9200000) 1),
    .source (.advanceClock 14000000)] ++ wholeTick 1

theorem sampleWorld_starts : Starts sampleWorld := by
  refine ⟨⟨by decide, by decide, ?_, by decide⟩, rfl, rfl, rfl⟩
  intro version member
  rw [List.mem_singleton.mp member]
  exact ⟨5000000, rfl, by decide, by decide⟩

theorem late_commit_is_merged : Exists fun last : World Nat =>
    run (step samplePipeline) sampleWorld lateCommit = some last ∧
      forall tick, tick ∈ last.finished -> forall version, version ∈ last.source ->
        version.commit < tick.asOf -> Below tick.hi version -> version ∈ last.lake := by
  have finished : (run (step samplePipeline) sampleWorld lateCommit).isSome = true := by decide
  rcases Option.isSome_iff_exists.mp finished with ⟨last, reached⟩
  exact ⟨last, reached, sequential_ticks_lose_nothing samplePipeline sampleWorld last lateCommit
    (Or.inl rfl) (by decide) sampleWorld_starts (by decide) reached⟩

end TableSync
end WarehouseSync

import WarehouseSync.Extract.ConsecutiveWindows
import WarehouseSync.Orchestration.SteadyState

namespace WarehouseSync
namespace TableSync

open Chunker Incremental KeyedRows Transition Watermarks

/-!
# Sequential ticks on a date column

One version is followed from the commit that makes it visible.  No watermark is
then more than the rounded overlap ahead of its day, so that the next windows
start at its day at the latest.  Starting at the day itself, a window still
compares the ids, and the id of a watermark that an empty window moved is that
of some earlier row.
-/

universe u

variable {δ : Type u}

/-- The day to which the clock, less the safety gap, had come at the last read.  A
date says no more than this about when a row was written. -/
def readDay (settings : IncrementalSettings) (lastRead : Int) : Int :=
  (lastRead - settings.gap) / microsPerDay

/-- The mark is the initial one, or no later than the last read.  It holds because
no window reaches beyond the clock at which it is read, less the gap. -/
def Behind (settings : IncrementalSettings) (lastRead : Int) (mark : Mark) : Prop :=
  mark.value ≤ 0 ∨ mark.value ≤ readDay settings lastRead

/-- Windows from this mark start at the day or before it.  The overlap is rounded up
to whole days, so a day can be read again by several ticks. -/
def Reaches (settings : IncrementalSettings) (mark : Mark) (day : Int) : Prop :=
  mark.value - settings.overlapDays ≤ day

/-- Ticks run one after the other, and nothing else but the source.  Unlike
elsewhere nothing is asked of the times that the source writes. -/
def OneByOne (world : World δ) : Event δ -> Prop
  | .source _ => True
  | .boot _ => False
  | .beginTick => world.ticks = []
  | .tick _ _ => True

instance decidableOneByOne (world : World δ) : forall event : Event δ, Decidable (OneByOne world event)
  | .source _ => isTrue trivial
  | .boot _ => isFalse (fun allowed => allowed)
  | .beginTick => decidable_of_iff (world.ticks.isEmpty = true) List.isEmpty_iff
  | .tick _ _ => isTrue trivial

/-- What is known of the tick that is under way, by how far it has come.  The mark
that it has read is still the stored one, because no other tick runs beside it. -/
def PacedTick (settings : IncrementalSettings) (world : World δ) : Tick δ -> Prop
  | .loaded found => found = true ∨ world.lake = []
  | .created => True
  | .reading now wm => wm = world.mark ∧ now ≤ world.clock
  | .merging window => window.asOf ≤ world.commits ∧
      (forall tick, tick ∈ world.finished -> tick.asOf ≤ window.asOf) ∧
      UniqueKeys Version.key window.pending.flatten ∧ Behind settings world.lastRead window.watermark

/-- The part that does not look at the tick.  It is split off so that steps of the
source, which leave the tick as it is, only have to keep this much. -/
structure PacedIdle (settings : IncrementalSettings) (world : World δ) : Prop where
  once : UniqueKeys Version.key world.source
  numbered : forall version, version ∈ world.source -> version.commit < world.commits
  read : world.lastRead ≤ world.clock
  behind : Behind settings world.lastRead world.mark
  logged : forall tick, tick ∈ world.finished -> tick.asOf ≤ world.commits

/-- The invariant of a run with ticks one by one.  It does not mention any version
of a row, so it is proved once and then used for the version that is followed. -/
structure Paced (settings : IncrementalSettings) (world : World δ) : Prop
    extends PacedIdle settings world where
  running : forall tick, tick ∈ world.ticks -> PacedTick settings world tick
  single : world.ticks.length ≤ 1

section Paced

variable {pipe : Pipeline δ} {settings : IncrementalSettings} {world after : World δ}

theorem Behind.mono {earlier later : Int} (order : earlier ≤ later) {mark : Mark}
    (behind : Behind settings earlier mark) : Behind settings later mark := by
  unfold Behind readDay microsPerDay at behind ⊢
  omega

/-- A mark that has not passed the day reaches it: the overlap is at least a day. -/
theorem reaches_of_le {mark : Mark} {day : Int} (behind : mark.value ≤ day) : Reaches settings mark day := by
  unfold Reaches IncrementalSettings.overlapDays
  omega

/-- A late version still lies at or above the lower bound of the next windows. -/
theorem Behind.reaches {lastRead clock day : Int} {mark : Mark} (behind : Behind settings lastRead mark)
    (positive : 0 < day) (unseen : lastRead < clock)
    (inTime : clock ≤ (day + 1) * microsPerDay + settings.gap + settings.overlap) :
    Reaches settings mark day := by
  unfold Behind readDay at behind
  unfold Reaches IncrementalSettings.overlapDays
  unfold IncrementalSettings.overlap microsPerSecond at inTime
  unfold microsPerDay at behind inTime
  omega

theorem behind_runIncremental {now : Int} {wm : Mark} {rows : List (Version δ)} (order : now ≤ world.clock)
    (behind : Behind settings world.clock wm) :
    Behind settings world.clock (runIncremental watermarkColumns settings .date now wm rows).watermark := by
  have bound : forall value : Int, value ≤ (now - settings.gap) / microsPerDay ->
      value ≤ readDay settings world.clock := by
    unfold readDay microsPerDay
    omega
  rcases watermark_cases (Or.inr rfl) (rfl : upperBound settings now .date = some _) with
    same | less | ⟨_, _, moved⟩
  · rw [same]
    exact behind
  · exact Or.inr (bound _ (le_of_lt less))
  · rw [moved]
    exact Or.inr (bound _ (le_refl _))

theorem PacedIdle.withTick (idle : PacedIdle settings world) {tick : Tick δ}
    (running : PacedTick settings world tick) : Paced settings { world with ticks := [tick] } := by
  refine ⟨⟨idle.once, idle.numbered, idle.read, idle.behind, idle.logged⟩, ?_, le_refl _⟩
  intro other member
  rw [List.mem_singleton.mp member]
  cases tick with
  | loaded found => exact running
  | created => trivial
  | reading now wm => exact running
  | merging window => exact running

theorem PacedIdle.without (idle : PacedIdle settings world) : Paced settings { world with ticks := [] } :=
  ⟨⟨idle.once, idle.numbered, idle.read, idle.behind, idle.logged⟩, List.forall_mem_nil _, Nat.zero_le 1⟩

/-- A step of the source lets the clock and the commits grow, and leaves the rest
of the world alone. -/
theorem Paced.source (paced : Paced settings world) (once : UniqueKeys Version.key after.source)
    (numbered : forall version, version ∈ after.source -> version.commit < after.commits)
    (clock : world.clock ≤ after.clock) (commits : world.commits ≤ after.commits)
    (table : after.table = world.table) (watermark : after.watermark = world.watermark)
    (ticks : after.ticks = world.ticks) (finished : after.finished = world.finished)
    (lastRead : after.lastRead = world.lastRead) : Paced settings after := by
  have lake : after.lake = world.lake := by
    unfold World.lake
    rw [table]
  have mark : after.mark = world.mark := by
    unfold World.mark
    rw [watermark]
  refine ⟨⟨once, numbered, ?_, ?_, ?_⟩, ?_, ticks ▸ paced.single⟩
  · rw [lastRead]
    exact le_trans paced.read clock
  · rw [lastRead, mark]
    exact paced.behind
  · intro tick member
    rw [finished] at member
    exact le_trans (paced.logged tick member) commits
  · intro tick member
    rw [ticks] at member
    have running := paced.running tick member
    cases tick with
    | loaded found =>
        unfold PacedTick
        rw [lake]
        exact running
    | created => trivial
    | reading now wm =>
        unfold PacedTick
        rw [mark]
        exact ⟨running.1, le_trans running.2 clock⟩
    | merging window =>
        rcases running with ⟨asOf, later, once, behind⟩
        unfold PacedTick
        rw [finished, lastRead]
        exact ⟨le_trans asOf commits, later, once, behind⟩

theorem Paced.stepSource (paced : Paced settings world) {event : SourceEvent δ}
    (taken : stepSource world event = some after) : Paced settings after := by
  rcases stepSource_cases taken with ⟨clock, _, later, rfl⟩ | ⟨id, updatedAt, data, _, rfl⟩ | ⟨id, _, rfl⟩
  · exact paced.source paced.once paced.numbered later (le_refl _) rfl rfl rfl rfl rfl
  · have once := uniqueKeys_write paced.once
      { id := id, updatedAt := updatedAt, commit := world.commits, data := data }
    refine paced.source once ?_ (le_refl _) (Nat.le_succ _) rfl rfl rfl rfl rfl
    intro version member
    rcases List.mem_append.mp member with old | new
    · exact Nat.lt_succ_of_lt (paced.numbered version (List.mem_of_mem_filter old))
    · rw [List.mem_singleton.mp new]
      exact Nat.lt_succ_self _
  · refine paced.source (paced.once.sublist List.filter_sublist) ?_ (le_refl _) (Nat.le_succ _)
      rfl rfl rfl rfl rfl
    intro version member
    exact Nat.lt_succ_of_lt (paced.numbered version (List.mem_of_mem_filter member))

theorem pacedTick_extract (date : pipe.kind = .date) (idle : PacedIdle pipe.settings world) {now : Int}
    (before : now ≤ world.clock) :
    PacedTick pipe.settings { world with lastRead := world.clock }
      (.merging (extractWindow pipe world now world.mark)) := by
  refine ⟨le_refl _, idle.logged, ?_, ?_⟩
  · have pending : (extractWindow pipe world now world.mark).pending.flatten =
        (runIncremental watermarkColumns pipe.settings pipe.kind now world.mark world.source).rows :=
      Splitting.flatten_batches _ _
    rw [pending]
    exact uniqueKeys_runIncremental idle.once
  · change Behind pipe.settings world.clock
      (runIncremental watermarkColumns pipe.settings pipe.kind now world.mark world.source).watermark
    rw [date]
    exact behind_runIncremental before (idle.behind.mono idle.read)

theorem Paced.stepTick (date : pipe.kind = .date) (paced : Paced pipe.settings world) {index : Nat}
    {event : TickEvent} (taken : step pipe world (.tick index event) = some after) :
    Paced pipe.settings after := by
  rcases Option.bind_eq_some_iff.mp taken with ⟨tick, found, stepped⟩
  rcases Option.map_eq_some_iff.mp stepped with ⟨next, moved, rfl⟩
  rcases single_tick paced.single found with ⟨alone, rfl⟩
  have running := paced.running tick (alone ▸ List.mem_singleton_self tick)
  have idle := paced.toPacedIdle
  rw [alone]
  rcases stepTick_cases moved with ⟨there, rfl, rfl⟩ | ⟨rfl, rfl⟩ | ⟨now, wm, rfl, rfl⟩ |
    ⟨window, batch, rest, lake, rfl, pending, present, rfl⟩ | ⟨window, rfl, pending, rfl⟩ | rfl
  · rcases createTable_eq world there with ⟨table, _, created⟩
    rw [created]
    have idleAfter : PacedIdle pipe.settings { world with table := table } :=
      ⟨idle.once, idle.numbered, idle.read, idle.behind, idle.logged⟩
    exact idleAfter.withTick trivial
  · exact idle.withTick ⟨rfl, le_refl _⟩
  · rcases running with ⟨rfl, before⟩
    have idleAfter : PacedIdle pipe.settings { world with lastRead := world.clock } :=
      ⟨idle.once, idle.numbered, le_refl _, idle.behind.mono idle.read, idle.logged⟩
    exact idleAfter.withTick (pacedTick_extract date idle before)
  · rcases running with ⟨asOf, later, once, behind⟩
    rw [pending, List.flatten_cons] at once
    have idleAfter : PacedIdle pipe.settings { world with table := some (mergeInto lake batch) } :=
      ⟨idle.once, idle.numbered, idle.read, idle.behind, idle.logged⟩
    have left : PacedTick pipe.settings { world with table := some (mergeInto lake batch) }
        (.merging { window with pending := rest }) :=
      ⟨asOf, later, (uniqueKeys_append.mp once).2.1, behind⟩
    exact idleAfter.withTick left
  · rcases running with ⟨asOf, later, _, behind⟩
    have idleAfter : PacedIdle pipe.settings { world with
        watermark := some (Mark.advance world.watermark window.watermark)
        finished := { asOf := window.asOf, hi := window.hi } :: world.finished } := by
      refine ⟨idle.once, idle.numbered, idle.read, ?_, ?_⟩
      · change Behind pipe.settings world.lastRead (Mark.advance world.watermark window.watermark)
        rcases Mark.advance_cases world.watermark window.watermark with new | kept
        · rw [new]
          exact behind
        · rw [kept]
          exact idle.behind
      · intro tick member
        rcases List.mem_cons.mp member with rfl | earlier
        · exact asOf
        · exact idle.logged tick earlier
    exact idleAfter.without
  · exact idle.without

theorem Paced.preserved (date : pipe.kind = .date) (paced : Paced pipe.settings world) {event : Event δ}
    (allowed : OneByOne world event) (taken : step pipe world event = some after) :
    Paced pipe.settings after := by
  cases event with
  | boot event => exact allowed.elim
  | tick index event => exact paced.stepTick date taken
  | source event => exact paced.stepSource taken
  | beginTick =>
      cases taken
      have idle : world.ticks = [] := allowed
      rw [idle]
      apply paced.toPacedIdle.withTick
      unfold PacedTick World.lake
      cases world.table with
      | none => exact Or.inr rfl
      | some lake => exact Or.inl rfl

end Paced

/-! ## A version and the windows after it -/

/-- The window that this tick is about to read does not start at the day of the
version with an id at or above its own, while it still has to be copied.  There the
query compares ids within the day, and would leave the version out. -/
def ClearOfWindow (pipe : Pipeline δ) (version : Version δ) (world : World δ) : Option (Tick δ) -> Prop
  | some (.reading now wm) => version ∈ world.source -> version ∉ world.lake ->
      (windowFor pipe.settings now wm pipe.kind).isSome = true ->
        version.updatedAt = some (lowerBound pipe.settings wm pipe.kind) -> wm.lastId < version.id
  | _ => True

/-- The same for a step: only the step that reads a window is concerned, since only
then rows are left out. -/
def ClearOf (pipe : Pipeline δ) (version : Version δ) (world : World δ) : Event δ -> Prop
  | .tick index .extract => ClearOfWindow pipe version world (world.ticks[index]?)
  | _ => True

instance decidableClearOfWindow [DecidableEq δ] (pipe : Pipeline δ) (version : Version δ) (world : World δ) :
    forall tick : Option (Tick δ), Decidable (ClearOfWindow pipe version world tick)
  | some (.reading _ _) => inferInstanceAs (Decidable (_ -> _ -> _ -> _ -> _))
  | some (.loaded _) => isTrue trivial
  | some .created => isTrue trivial
  | some (.merging _) => isTrue trivial
  | none => isTrue trivial

instance decidableClearOf [DecidableEq δ] (pipe : Pipeline δ) (version : Version δ) (world : World δ) :
    forall event : Event δ, Decidable (ClearOf pipe version world event)
  | .tick _ .extract => decidableClearOfWindow pipe version world _
  | .tick _ .create => isTrue trivial
  | .tick _ .read => isTrue trivial
  | .tick _ .merge => isTrue trivial
  | .tick _ .advance => isTrue trivial
  | .tick _ .fail => isTrue trivial
  | .source _ => isTrue trivial
  | .boot _ => isTrue trivial
  | .beginTick => isTrue trivial

/-- A tick that has read its window, as far as the version is concerned.  Either the
tick could see the version, and has it or leaves it to a later window, or it could
not, and then the mark that it will store still reaches the day. -/
structure TrackedWindow (pipe : Pipeline δ) (version : Version δ) (day : Int) (world : World δ)
    (window : Merging δ) : Prop where
  agree : version ∈ world.source -> version.commit < window.asOf ->
    forall other, other ∈ window.pending.flatten -> version.id = other.id -> version = other
  seen : version ∈ world.source -> version.commit < window.asOf ->
    version ∈ world.lake ∨ version ∈ window.pending.flatten ∨
      (¬ Below window.hi version ∧ Reaches pipe.settings window.watermark day)
  unseen : version ∈ world.source -> window.asOf ≤ version.commit ->
    Reaches pipe.settings world.mark day ∧ Reaches pipe.settings window.watermark day

/-- While the version is current, it is in the lake or the next window starts at its
day at the latest, and the ticks that had it in their window left it in the lake.
This is the invariant that is carried from the write on. -/
structure Tracked (pipe : Pipeline δ) (version : Version δ) (day : Int) (world : World δ) : Prop where
  committed : version.commit < world.commits
  covered : version ∈ world.source -> version ∈ world.lake ∨ Reaches pipe.settings world.mark day
  logged : version ∈ world.source -> forall tick, tick ∈ world.finished -> version.commit < tick.asOf ->
    Below tick.hi version -> version ∈ world.lake
  running : forall window, Tick.merging window ∈ world.ticks -> TrackedWindow pipe version day world window

section Tracked

variable {pipe : Pipeline δ} {version : Version δ} {day : Int} {world after : World δ}

/-- A step of the source does not bring the version back. -/
theorem mem_source_of_stepSource {event : SourceEvent δ} (committed : version.commit < world.commits)
    (taken : stepSource world event = some after) (member : version ∈ after.source) :
    version ∈ world.source := by
  rcases stepSource_cases taken with ⟨clock, _, _, rfl⟩ | ⟨id, updatedAt, data, _, rfl⟩ | ⟨id, _, rfl⟩
  · exact member
  · rcases List.mem_append.mp member with old | new
    · exact List.mem_of_mem_filter old
    · rw [List.mem_singleton.mp new] at committed
      exact absurd committed (lt_irrefl _)
  · exact List.mem_of_mem_filter member

theorem stepSource_keeps {event : SourceEvent δ} (taken : stepSource world event = some after) :
    world.commits ≤ after.commits ∧ after.table = world.table ∧ after.watermark = world.watermark ∧
      after.ticks = world.ticks ∧ after.finished = world.finished := by
  rcases stepSource_cases taken with ⟨clock, _, _, rfl⟩ | ⟨id, updatedAt, data, _, rfl⟩ | ⟨id, _, rfl⟩
  · exact ⟨le_refl _, rfl, rfl, rfl, rfl⟩
  · exact ⟨Nat.le_succ _, rfl, rfl, rfl, rfl⟩
  · exact ⟨Nat.le_succ _, rfl, rfl, rfl, rfl⟩

theorem Tracked.stepSource (tracked : Tracked pipe version day world) {event : SourceEvent δ}
    (taken : stepSource world event = some after) : Tracked pipe version day after := by
  have still : version ∈ after.source -> version ∈ world.source :=
    mem_source_of_stepSource tracked.committed taken
  rcases stepSource_keeps taken with ⟨commits, table, watermark, ticks, finished⟩
  have lake : after.lake = world.lake := by
    unfold World.lake
    rw [table]
  have mark : after.mark = world.mark := by
    unfold World.mark
    rw [watermark]
  refine ⟨lt_of_lt_of_le tracked.committed commits, ?_, ?_, ?_⟩
  · rw [lake, mark]
    exact fun member => tracked.covered (still member)
  · rw [lake, finished]
    exact fun member => tracked.logged (still member)
  · rw [ticks]
    intro window member
    have running := tracked.running window member
    refine ⟨fun present => running.agree (still present), ?_, ?_⟩
    · rw [lake]
      exact fun present => running.seen (still present)
    · rw [mark]
      exact fun present => running.unseen (still present)

/-- Reading a window that the version is clear of. -/
theorem trackedWindow_extract (date : pipe.kind = .date) (dated : version.updatedAt = some day)
    (paced : PacedIdle pipe.settings world) (tracked : Tracked pipe version day world) {now : Int}
    (clear : version ∈ world.source -> version ∉ world.lake ->
      (windowFor pipe.settings now world.mark pipe.kind).isSome = true ->
        version.updatedAt = some (lowerBound pipe.settings world.mark pipe.kind) ->
          world.mark.lastId < version.id) :
    TrackedWindow pipe version day { world with lastRead := world.clock }
      (extractWindow pipe world now world.mark) := by
  have pending : (extractWindow pipe world now world.mark).pending.flatten =
      (runIncremental watermarkColumns pipe.settings .date now world.mark world.source).rows := by
    rw [← date]
    exact Splitting.flatten_batches _ _
  have upper : upperBound pipe.settings now .date = some ((now - pipe.settings.gap) / microsPerDay) := rfl
  refine ⟨fun present _ other member same => ?_, fun present _ => ?_, fun present unseen => ?_⟩
  · rw [pending, mem_runIncremental_iff (Or.inr rfl)] at member
    exact paced.once.eq_of_key present member.1 (congrArg some same) rfl
  · by_cases merged : version ∈ world.lake
    · exact Or.inl merged
    · have reaches := (tracked.covered present).resolve_left merged
      rw [date] at clear
      by_cases below : Below (upperBound pipe.settings now .date) version
      · right
        left
        rw [pending, mem_runIncremental_iff (Or.inr rfl)]
        refine ⟨present, ?_, below⟩
        rcases lt_or_eq_of_le reaches with under | same
        · exact ⟨day, dated, Or.inl under⟩
        · have room : lowerBound pipe.settings world.mark .date < (now - pipe.settings.gap) / microsPerDay :=
            lt_of_eq_of_lt same (below _ day upper dated)
          have planned := windowFor_of_room upper room
          refine ⟨day, dated, Or.inr ⟨same, clear present merged ?_ (dated.trans (congrArg some same.symm))⟩⟩
          rw [planned]
          rfl
      · right
        right
        have beyond : (now - pipe.settings.gap) / microsPerDay ≤ day := by
          by_contra less
          apply below
          intro hi value same carries
          cases upper.symm.trans same
          cases dated.symm.trans carries
          exact not_le.mp less
        change ¬ Below (upperBound pipe.settings now pipe.kind) version ∧ Reaches pipe.settings
          (runIncremental watermarkColumns pipe.settings pipe.kind now world.mark world.source).watermark day
        rw [date]
        refine ⟨below, ?_⟩
        rcases watermark_cases (Or.inr rfl) upper with same | less | ⟨_, _, moved⟩
        · rw [same]
          exact reaches
        · exact reaches_of_le (le_trans (le_of_lt less) beyond)
        · rw [moved]
          exact reaches_of_le beyond
  · exact absurd (paced.numbered version present) (not_lt_of_ge unseen)

/-- Advancing the watermark leaves the version covered. -/
theorem reaches_advance {stored : Option Mark} {attempted : Mark}
    (old : Reaches pipe.settings (stored.getD Mark.initial) day) (new : Reaches pipe.settings attempted day) :
    Reaches pipe.settings (Mark.advance stored attempted) day := by
  rcases Mark.advance_cases stored attempted with same | same
  · rw [same]
    exact new
  · rw [same]
    exact old

/-- The version stays in the lake, or comes there with its batch. -/
theorem mem_lake_of_tracked {window : Merging δ} (opened : TrackedWindow pipe version day world window)
    (once : UniqueKeys Version.key window.pending.flatten) {batch : List (Version δ)}
    {rest : List (List (Version δ))} {lake : List (Version δ)} (pending : window.pending = batch :: rest)
    (present : world.table = some lake) (member : version ∈ world.source)
    (visible : version.commit < window.asOf) (held : version ∈ world.lake ∨ version ∈ batch) :
    version ∈ mergeInto lake batch :=
  mem_mergeInto_pending once (opened.agree member visible) pending present held

theorem Tracked.merge (tracked : Tracked pipe version day world) {window : Merging δ}
    (opened : TrackedWindow pipe version day world window)
    (paced : PacedTick pipe.settings world (.merging window)) {batch : List (Version δ)}
    {rest : List (List (Version δ))} {lake : List (Version δ)} (pending : window.pending = batch :: rest)
    (present : world.table = some lake) :
    (version.commit < world.commits ∧
      (version ∈ world.source -> version ∈ mergeInto lake batch ∨ Reaches pipe.settings world.mark day) ∧
      (version ∈ world.source -> forall tick, tick ∈ world.finished -> version.commit < tick.asOf ->
        Below tick.hi version -> version ∈ mergeInto lake batch)) ∧
      TrackedWindow pipe version day { world with table := some (mergeInto lake batch) }
        { window with pending := rest } := by
  rcases paced with ⟨_, later, once, _⟩
  have whole : window.pending.flatten = batch ++ rest.flatten := by
    rw [pending, List.flatten_cons]
  refine ⟨⟨tracked.committed, ?_, ?_⟩, ?_, ?_, opened.unseen⟩
  · intro member
    by_cases visible : version.commit < window.asOf
    · exact (tracked.covered member).imp_left (fun merged =>
        mem_lake_of_tracked opened once pending present member visible (Or.inl merged))
    · exact Or.inr (opened.unseen member (not_lt.mp visible)).1
  · intro member tick listed visible below
    exact mem_lake_of_tracked opened once pending present member
      (lt_of_lt_of_le visible (later tick listed)) (Or.inl (tracked.logged member tick listed visible below))
  · intro member visible other listed
    exact opened.agree member visible other (whole ▸ List.mem_append_right _ listed)
  · intro member visible
    rcases opened.seen member visible with merged | waiting | beyond
    · exact Or.inl (mem_lake_of_tracked opened once pending present member visible (Or.inl merged))
    · rcases List.mem_append.mp (whole ▸ waiting) with now | afterwards
      · exact Or.inl (mem_lake_of_tracked opened once pending present member visible (Or.inr now))
      · exact Or.inr (Or.inl afterwards)
    · exact Or.inr (Or.inr beyond)

theorem Tracked.stepTick (date : pipe.kind = .date) (dated : version.updatedAt = some day)
    (paced : Paced pipe.settings world) (tracked : Tracked pipe version day world) {index : Nat}
    {event : TickEvent} (clear : ClearOf pipe version world (.tick index event))
    (taken : step pipe world (.tick index event) = some after) : Tracked pipe version day after := by
  rcases Option.bind_eq_some_iff.mp taken with ⟨tick, found, stepped⟩
  rcases Option.map_eq_some_iff.mp stepped with ⟨next, moved, rfl⟩
  rcases single_tick paced.single found with ⟨alone, rfl⟩
  have running := paced.running tick (alone ▸ List.mem_singleton_self tick)
  rw [alone]
  rcases stepTick_cases moved with ⟨there, rfl, rfl⟩ | ⟨rfl, rfl⟩ | ⟨now, wm, rfl, rfl⟩ |
    ⟨window, batch, rest, lake, rfl, pending, present, rfl⟩ | ⟨window, rfl, pending, rfl⟩ | rfl
  · rcases createTable_keeps running with ⟨table, created, kept⟩
    rw [created]
    refine ⟨tracked.committed, ?_, ?_, ?_⟩
    · exact fun member => (tracked.covered member).imp_left (kept version)
    · exact fun member tick listed visible below =>
        kept version (tracked.logged member tick listed visible below)
    · intro window member
      cases List.mem_singleton.mp member
  · refine ⟨tracked.committed, tracked.covered, tracked.logged, ?_⟩
    intro window member
    cases List.mem_singleton.mp member
  · rcases running with ⟨rfl, before⟩
    refine ⟨tracked.committed, tracked.covered, tracked.logged, ?_⟩
    intro window member
    cases List.mem_singleton.mp member
    have extract : event = .extract := by
      cases event with
      | extract => rfl
      | create => cases moved
      | read => cases moved
      | merge => cases moved
      | advance => cases moved
      | fail => exact absurd (congrArg Prod.snd (Option.some.inj moved)) (Option.some_ne_none _).symm
    subst extract
    unfold ClearOf ClearOfWindow at clear
    simp only [found] at clear
    have read := trackedWindow_extract date dated paced.toPacedIdle tracked clear
    exact ⟨read.agree, read.seen, read.unseen⟩
  · have opened := tracked.running window (alone ▸ List.mem_singleton_self _)
    rcases tracked.merge opened running pending present with ⟨⟨committed, covered, logged⟩, left⟩
    refine ⟨committed, covered, logged, ?_⟩
    intro other member
    cases List.mem_singleton.mp member
    exact ⟨left.agree, left.seen, left.unseen⟩
  · have opened := tracked.running window (alone ▸ List.mem_singleton_self _)
    have finished : version ∈ world.source -> version.commit < window.asOf ->
        version ∈ world.lake ∨ (¬ Below window.hi version ∧ Reaches pipe.settings window.watermark day) := by
      intro member visible
      rcases opened.seen member visible with merged | waiting | beyond
      · exact Or.inl merged
      · rw [pending] at waiting
        cases waiting
      · exact Or.inr beyond
    refine ⟨tracked.committed, ?_, ?_, fun other member => by cases member⟩
    · intro member
      rcases tracked.covered member with merged | reaches
      · exact Or.inl merged
      · by_cases visible : version.commit < window.asOf
        · exact (finished member visible).imp_right (fun beyond => reaches_advance reaches beyond.2)
        · exact Or.inr (reaches_advance reaches (opened.unseen member (not_lt.mp visible)).2)
    · intro member tick listed visible below
      rcases List.mem_cons.mp listed with rfl | earlier
      · exact (finished member visible).resolve_right (fun beyond => beyond.1 below)
      · exact tracked.logged member tick earlier visible below
  · refine ⟨tracked.committed, tracked.covered, tracked.logged, ?_⟩
    intro window member
    cases member

theorem Tracked.preserved (date : pipe.kind = .date) (dated : version.updatedAt = some day)
    (paced : Paced pipe.settings world) (tracked : Tracked pipe version day world) {event : Event δ}
    (allowed : OneByOne world event) (clear : ClearOf pipe version world event)
    (taken : step pipe world event = some after) : Tracked pipe version day after := by
  cases event with
  | boot event => exact allowed.elim
  | tick index event => exact tracked.stepTick date dated paced clear taken
  | source event => exact tracked.stepSource taken
  | beginTick =>
      cases taken
      have idle : world.ticks = [] := allowed
      refine ⟨tracked.committed, tracked.covered, tracked.logged, ?_⟩
      intro window member
      rw [idle] at member
      cases List.mem_singleton.mp member

/-- A window that the version is not clear of leaves it out. -/
theorem not_mem_window_of_tie (date : pipe.kind = .date) {now : Int} {wm : Mark}
    (atLower : version.updatedAt = some (lowerBound pipe.settings wm pipe.kind))
    (old : version.id ≤ wm.lastId) :
    version ∉ (extractWindow pipe world now wm).pending.flatten := by
  have pending : (extractWindow pipe world now wm).pending.flatten =
      (runIncremental watermarkColumns pipe.settings pipe.kind now wm world.source).rows :=
    Splitting.flatten_batches _ _
  rw [pending, date, mem_runIncremental_iff (Or.inr rfl)]
  rintro ⟨_, ⟨value, carries, beyond⟩, _⟩
  rw [date] at atLower
  cases atLower.symm.trans carries
  rcases beyond with less | ⟨_, ids⟩
  · exact lt_irrefl _ less
  · exact absurd ids (not_lt.mpr old)

end Tracked

/-! ## The run -/

/-- Nothing was synced yet; the source may hold rows, or none.  The rows are
numbered by earlier commits, so that the write in question is later than all of
them. -/
structure NothingSynced (world : World δ) : Prop where
  once : UniqueKeys Version.key world.source
  numbered : forall version, version ∈ world.source -> version.commit < world.commits
  read : world.lastRead ≤ world.clock
  watermark : world.watermark = none
  ticks : world.ticks = []
  finished : world.finished = []

theorem NothingSynced.paced {world : World δ} (start : NothingSynced world) (settings : IncrementalSettings) :
    Paced settings world := by
  refine ⟨⟨start.once, start.numbered, start.read, ?_, ?_⟩, ?_, ?_⟩
  · rw [World.mark_eq_initial start.watermark]
    exact Or.inl (le_refl _)
  · rw [start.finished]
    exact List.forall_mem_nil _
  · rw [start.ticks]
    exact List.forall_mem_nil _
  · rw [start.ticks]
    exact Nat.zero_le 1

/-- The version that a write brings in this world.  It is numbered with the commits
so far, which tells it from every other version of its row. -/
def writtenVersion (world : World δ) (id day : Int) (data : δ) : Version δ :=
  { id := id, updatedAt := some day, commit := world.commits, data := data }

/-- A version that becomes visible in time is covered by whatever is stored or
about to be. -/
theorem Paced.tracked {pipe : Pipeline δ} {world after : World δ} (paced : Paced pipe.settings world)
    {id day : Int} {data : δ} (positive : 0 < day) (unseen : world.lastRead < world.clock)
    (inTime : world.clock ≤ (day + 1) * microsPerDay + pipe.settings.gap + pipe.settings.overlap)
    (taken : step pipe world (.source (.write id (some day) data)) = some after) :
    Tracked pipe (writtenVersion world id day data) day after := by
  cases taken
  have reaches : forall mark : Mark, Behind pipe.settings world.lastRead mark ->
      Reaches pipe.settings mark day := fun mark behind => behind.reaches positive unseen inTime
  refine ⟨Nat.lt_succ_self _, fun _ => Or.inr (reaches _ paced.behind), ?_, ?_⟩
  · intro _ tick member visible
    exact absurd visible (not_lt_of_ge (paced.logged tick member))
  · intro window member
    rcases paced.running _ member with ⟨asOf, _, _, behind⟩
    refine ⟨fun _ visible => ?_, fun _ visible => ?_, fun _ _ => ⟨reaches _ paced.behind, reaches _ behind⟩⟩
    · exact absurd visible (not_lt_of_ge asOf)
    · exact absurd visible (not_lt_of_ge asOf)

/-- A version whose day ended at most gap and overlap before it becomes visible, and
that no window it is clear of starts at, is in the lake after every tick that saw it
and whose upper bound exceeds its day, as long as it is current. -/
theorem dated_version_is_merged (pipe : Pipeline δ) (date : pipe.kind = .date)
    {world middle last : World δ} {before later : List (Event δ)} {id day : Int} {data : δ}
    (start : NothingSynced world) (ordered : Along (step pipe) OneByOne world before)
    (reached : run (step pipe) world before = some middle)
    (positive : 0 < day) (unseen : middle.lastRead < middle.clock)
    (inTime : middle.clock ≤ (day + 1) * microsPerDay + pipe.settings.gap + pipe.settings.overlap)
    (orderedLater : Along (step pipe) OneByOne middle (.source (.write id (some day) data) :: later))
    (clear : Along (step pipe) (ClearOf pipe (writtenVersion middle id day data)) middle
      (.source (.write id (some day) data) :: later))
    (ended : run (step pipe) middle (.source (.write id (some day) data) :: later) = some last) :
    forall tick, tick ∈ last.finished -> middle.commits < tick.asOf ->
      Below tick.hi (writtenVersion middle id day data) ->
        writtenVersion middle id day data ∈ last.source -> writtenVersion middle id day data ∈ last.lake := by
  have paced : Paced pipe.settings middle :=
    run_invariant (fun _ _ _ held allowed taken => held.preserved date allowed taken) (start.paced _) ordered reached
  rcases run_cons_eq_some.mp ended with ⟨first, taken, rest⟩
  have pacedFirst := paced.preserved date orderedLater.1 taken
  have tracked := paced.tracked positive unseen inTime taken
  have kept : forall (state : World δ) (event : Event δ) (next : World δ),
      (Paced pipe.settings state ∧ Tracked pipe (writtenVersion middle id day data) day state) ->
      (OneByOne state event ∧ ClearOf pipe (writtenVersion middle id day data) state event) ->
      step pipe state event = some next ->
        Paced pipe.settings next ∧ Tracked pipe (writtenVersion middle id day data) day next := by
    rintro state event next ⟨held, follows⟩ ⟨allowed, free⟩ moved
    exact ⟨held.preserved date allowed moved, follows.preserved date rfl held allowed free moved⟩
  have conditions := (orderedLater.2 first taken).and (clear.2 first taken)
  have both := run_invariant kept ⟨pacedFirst, tracked⟩ conditions rest
  intro tick member visible below present
  exact both.2.logged present tick member visible below

/-- Five minutes of overlap, that is one day, and half a minute of safety gap. -/
def datePipeline : Pipeline Nat :=
  { samplePipeline with kind := .date, settings := { overlapSeconds := 300, gapSeconds := 30 } }

/-- A microsecond count of a day and seconds in it. -/
def secondsInto (day seconds : Int) : Int :=
  day * microsPerDay + seconds * microsPerSecond

/-- Day 20, with a row of the day before. -/
def dayTwenty : World Nat :=
  { sampleWorld with
    clock := secondsInto 20 40
    source := [{ id := 5, updatedAt := some 19, commit := 0, data := 0 }] }

/-- The row is synced on day 20; it is updated just after the next midnight, so
that the next tick finds an empty window. -/
def beforeTheCommit : List (Event Nat) :=
  wholeTick 1 ++ [.source (.advanceClock (secondsInto 21 10)), .source (.write 5 (some 21) 1),
    .source (.advanceClock (secondsInto 21 40))] ++ wholeTick 0 ++
    [.source (.advanceClock (secondsInto 21 60))]

def afterTheCommit (batches : Nat) : List (Event Nat) :=
  .source (.advanceClock (secondsInto 21 120)) :: wholeTick batches

/-- The world in which the transaction of day 20 commits. -/
def aMinutePastMidnight : World Nat :=
  (run (step datePipeline) dayTwenty beforeTheCommit).getD dayTwenty

theorem dayTwenty_unsynced : NothingSynced dayTwenty := by
  refine ⟨by decide, by decide, by decide, rfl, rfl, rfl⟩

theorem reaches_midnight :
    run (step datePipeline) dayTwenty beforeTheCommit = some aMinutePastMidnight := by
  decide

/-- A new row of the evening before, committed a minute past midnight. -/
theorem new_row_is_merged : Exists fun last : World Nat =>
    run (step datePipeline) aMinutePastMidnight (.source (.write 7 (some 20) 2) :: afterTheCommit 1) = some last ∧
      forall tick, tick ∈ last.finished -> aMinutePastMidnight.commits < tick.asOf ->
        Below tick.hi (writtenVersion aMinutePastMidnight 7 20 2) ->
          writtenVersion aMinutePastMidnight 7 20 2 ∈ last.source ->
            writtenVersion aMinutePastMidnight 7 20 2 ∈ last.lake := by
  have finished : (run (step datePipeline) aMinutePastMidnight
      (.source (.write 7 (some 20) 2) :: afterTheCommit 1)).isSome = true := by decide
  rcases Option.isSome_iff_exists.mp finished with ⟨last, ended⟩
  exact ⟨last, ended, dated_version_is_merged datePipeline rfl dayTwenty_unsynced (by decide) reaches_midnight
    (by decide) (by decide) (by decide) (by decide) (by decide) ended⟩

/-- An old row that was updated that evening is missed: the next window starts
at its day, with the id that the empty window left behind. -/
theorem old_row_is_missed : Exists fun last : World Nat =>
    Along (step datePipeline) OneByOne dayTwenty
        (beforeTheCommit ++ .source (.write 3 (some 20) 2) :: afterTheCommit 0) ∧
      run (step datePipeline) dayTwenty beforeTheCommit = some aMinutePastMidnight ∧
      aMinutePastMidnight.lastRead < aMinutePastMidnight.clock ∧
      aMinutePastMidnight.clock ≤ (20 + 1) * microsPerDay + datePipeline.settings.gap +
        datePipeline.settings.overlap ∧
      run (step datePipeline) aMinutePastMidnight (.source (.write 3 (some 20) 2) :: afterTheCommit 0) =
        some last ∧
      (Exists fun tick : FinishedTick => tick ∈ last.finished ∧ aMinutePastMidnight.commits < tick.asOf ∧
        tick.hi = some 21) ∧
      writtenVersion aMinutePastMidnight 3 20 2 ∈ last.source ∧
      writtenVersion aMinutePastMidnight 3 20 2 ∉ last.lake := by
  refine ⟨(run (step datePipeline) aMinutePastMidnight
    (.source (.write 3 (some 20) 2) :: afterTheCommit 0)).getD dayTwenty, by decide, reaches_midnight,
    by decide, by decide, by decide, ?_, by decide, by decide⟩
  exact ⟨{ asOf := 3, hi := some 21 }, by decide, by decide, rfl⟩

end TableSync
end WarehouseSync

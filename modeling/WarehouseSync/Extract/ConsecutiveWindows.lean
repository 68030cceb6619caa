import WarehouseSync.Extract.Incremental

namespace WarehouseSync
namespace Incremental

open Chunker Watermarks

/-!
# Two windows, one after the other

A tick of a time-bounded kind takes the rows above its lower bound and below its
upper bound, and the next one starts behind what was stored.  That is the
greatest row of the window; the old watermark, when there was no window or no
greater row; or, when the window was empty, its upper bound together with the id
of the old watermark.  In the last case the next window compares ids at the
bound itself, unless the overlap takes it further back.
-/

universe u

variable {ρ : Type u} {columns : WatermarkColumns ρ} {settings : IncrementalSettings}
  {kind : WatermarkKind} {now : Int} {wm : Mark} {rows : List ρ}

/-- The kinds whose windows end at the clock.  The other two have no upper bound, so
that a second window begins where the rows of the first one end. -/
def Bounded (kind : WatermarkKind) : Prop :=
  kind = .timestampTz ∨ kind = .date

/-- The value that a window starts behind: the stored value, less the overlap for
the kinds that are times. -/
def lowerBound (settings : IncrementalSettings) (wm : Mark) : WatermarkKind -> Int
  | .timestampTz => wm.value - settings.overlap
  | .timestampNaive => wm.value - settings.overlap
  | .date => wm.value - settings.overlapDays
  | .integer => wm.value

/-- The row has a value above the lower bound of a window from this watermark; at
the bound itself the ids are compared, because several rows may share the value. -/
def AboveLower (columns : WatermarkColumns ρ) (settings : IncrementalSettings) (kind : WatermarkKind)
    (wm : Mark) (row : ρ) : Prop :=
  Exists fun value : Int => columns.watermark row = some value ∧
    (lowerBound settings wm kind < value ∨
      (lowerBound settings wm kind = value ∧ wm.lastId < columns.id row))

/-- The row has no value at or above the upper bound.  A row without a value passes
as well, so that this is asked together with `AboveLower`. -/
def BelowUpper (columns : WatermarkColumns ρ) (settings : IncrementalSettings) (kind : WatermarkKind)
    (now : Int) (row : ρ) : Prop :=
  forall hi value, upperBound settings now kind = some hi -> columns.watermark row = some value -> value < hi

theorem lo_of_bounded {lo hi : Int} {window : Window} (planned : bounded lo hi = some window) :
    window.lo = lo := by
  unfold bounded at planned
  split at planned
  · cases planned
  · cases planned
    rfl

theorem lo_of_windowFor {window : Window} (planned : windowFor settings now wm kind = some window) :
    window.lo = lowerBound settings wm kind := by
  cases kind with
  | timestampTz => exact lo_of_bounded planned
  | date => exact lo_of_bounded planned
  | timestampNaive =>
      cases planned
      rfl
  | integer =>
      cases planned
      rfl

theorem windowFor_eq_bounded {hi : Int} (upper : upperBound settings now kind = some hi) :
    windowFor settings now wm kind = bounded (lowerBound settings wm kind) hi := by
  cases kind with
  | timestampTz =>
      cases upper
      rfl
  | date =>
      cases upper
      rfl
  | timestampNaive => cases upper
  | integer => cases upper

/-- There is a window when its bounds leave room. -/
theorem windowFor_of_room {hi : Int} (upper : upperBound settings now kind = some hi)
    (room : lowerBound settings wm kind < hi) :
    windowFor settings now wm kind = some { lo := lowerBound settings wm kind, hi := some hi } :=
  (windowFor_eq_bounded upper).trans (if_neg (not_le.mpr room))

theorem windowFor_of_no_room {hi : Int} (upper : upperBound settings now kind = some hi)
    (room : ¬ lowerBound settings wm kind < hi) : windowFor settings now wm kind = none :=
  (windowFor_eq_bounded upper).trans (if_pos (not_lt.mp room))

theorem upperBound_of_bounded (limited : Bounded kind) (settings : IncrementalSettings) (now : Int) :
    Exists fun hi : Int => upperBound settings now kind = some hi := by
  rcases limited with rfl | rfl
  · exact ⟨_, rfl⟩
  · exact ⟨_, rfl⟩

/-- A tick takes the source rows between its bounds. -/
theorem mem_runIncremental_iff (limited : Bounded kind) {row : ρ} :
    row ∈ (runIncremental columns settings kind now wm rows).rows ↔
      row ∈ rows ∧ AboveLower columns settings kind wm row ∧ BelowUpper columns settings kind now row := by
  rw [mem_runIncremental]
  constructor
  · rintro ⟨window, planned, member, selected⟩
    rcases selects_iff.mp selected with ⟨value, carries, above, below⟩
    rw [lo_of_windowFor planned] at above
    refine ⟨member, ⟨value, carries, above⟩, ?_⟩
    intro hi other upper carriesToo
    have same : value = other := Option.some.inj (carries.symm.trans carriesToo)
    exact same ▸ below hi ((hi_of_windowFor planned).trans upper)
  · rintro ⟨member, ⟨value, carries, above⟩, below⟩
    rcases upperBound_of_bounded limited settings now with ⟨hi, upper⟩
    have under : value < hi := below hi value upper carries
    have room : lowerBound settings wm kind < hi := by
      rcases above with less | ⟨same, _⟩
      · exact lt_trans less under
      · exact same ▸ under
    refine ⟨_, windowFor_of_room upper room, member, selects_iff.mpr ⟨value, carries, above, ?_⟩⟩
    rintro other ⟨⟩
    exact under

/-! ## What the first window leaves behind -/

/-- Nothing of the source lies in the window.  Then the watermark moves to the upper
bound all the same, and the rows that arrive at that bound later meet the old id. -/
def EmptyWindow (columns : WatermarkColumns ρ) (settings : IncrementalSettings) (kind : WatermarkKind)
    (now : Int) (wm : Mark) (rows : List ρ) : Prop :=
  forall row, row ∈ rows -> AboveLower columns settings kind wm row ->
    ¬ BelowUpper columns settings kind now row

theorem emptyWindow_iff (limited : Bounded kind) {hi : Int} (upper : upperBound settings now kind = some hi)
    (room : lowerBound settings wm kind < hi) :
    EmptyWindow columns settings kind now wm rows ↔
      Window.rows columns { lo := lowerBound settings wm kind, hi := some hi } wm.lastId rows = [] := by
  have planned := windowFor_of_room upper room
  rw [List.eq_nil_iff_forall_not_mem]
  constructor
  · intro empty row member
    have taken : row ∈ (runIncremental columns settings kind now wm rows).rows :=
      mem_runIncremental.mpr ⟨_, planned, mem_windowRows.mp member⟩
    rcases (mem_runIncremental_iff limited).mp taken with ⟨present, above, below⟩
    exact empty row present above below
  · intro empty row member above below
    have taken : row ∈ (runIncremental columns settings kind now wm rows).rows :=
      (mem_runIncremental_iff limited).mpr ⟨member, above, below⟩
    rcases mem_runIncremental.mp taken with ⟨window, plannedToo, selected⟩
    rw [planned] at plannedToo
    cases plannedToo
    exact empty row (mem_windowRows.mpr selected)

/-- An empty window moves the value of the watermark to its upper bound. -/
theorem watermark_of_empty (limited : Bounded kind) {hi : Int} (upper : upperBound settings now kind = some hi)
    (room : lowerBound settings wm kind < hi) (empty : EmptyWindow columns settings kind now wm rows) :
    (runIncremental columns settings kind now wm rows).watermark = { value := hi, lastId := wm.lastId } := by
  have none := (emptyWindow_iff limited upper room).mp empty
  unfold runIncremental
  simp only [windowFor_of_room upper room, none]

/-- The watermark stays, comes to a value below the upper bound, or was moved to
the bound by an empty window. -/
theorem watermark_cases (limited : Bounded kind) {hi : Int} (upper : upperBound settings now kind = some hi) :
    (runIncremental columns settings kind now wm rows).watermark = wm ∨
      (runIncremental columns settings kind now wm rows).watermark.value < hi ∨
      (lowerBound settings wm kind < hi ∧ EmptyWindow columns settings kind now wm rows ∧
        (runIncremental columns settings kind now wm rows).watermark = { value := hi, lastId := wm.lastId }) := by
  by_cases room : lowerBound settings wm kind < hi
  · by_cases empty : EmptyWindow columns settings kind now wm rows
    · exact Or.inr (Or.inr ⟨room, empty, watermark_of_empty limited upper room empty⟩)
    · have filled := mt (emptyWindow_iff limited upper room).mpr empty
      unfold runIncremental
      simp only [windowFor_of_room upper room]
      cases staged : Window.rows columns { lo := lowerBound settings wm kind, hi := some hi } wm.lastId rows with
      | nil => exact absurd staged filled
      | cons first rest =>
          rcases @foldl_raise_cases ρ columns (first :: rest) wm with same | ⟨row, member, carries⟩
          · exact Or.inl same
          · have selected := (mem_windowRows.mp (staged ▸ member)).2
            rcases selects_iff.mp selected with ⟨value, valued, _, below⟩
            have same : value = _ := Option.some.inj (valued.symm.trans carries)
            exact Or.inr (Or.inl (same ▸ below hi rfl))
  · refine Or.inl ?_
    unfold runIncremental
    simp only [windowFor_of_no_room upper room]

/-- Every row above the lower bound of the first tick and below the upper bound of
the second is in one of the two windows.  The second tick reads what the first one
stored, which is why the stored mark and not the first watermark occurs in it. -/
def NoGap (columns : WatermarkColumns ρ) (settings : IncrementalSettings) (kind : WatermarkKind)
    (first second : Int) (stored : Option Mark) (rows : List ρ) : Prop :=
  let wm := stored.getD Mark.initial
  let early := runIncremental columns settings kind first wm rows
  let late := runIncremental columns settings kind second (Mark.advance stored early.watermark) rows
  forall row, row ∈ rows -> AboveLower columns settings kind wm row ->
    BelowUpper columns settings kind second row -> row ∈ early.rows ∨ row ∈ late.rows

/-- Without an overlap, no row at the upper bound of an empty first window has an id
that is not above the stored one.  With an overlap there is nothing to ask: the
second window begins before the bound. -/
def BoundaryClear (columns : WatermarkColumns ρ) (settings : IncrementalSettings) (kind : WatermarkKind)
    (first : Int) (wm : Mark) (rows : List ρ) : Prop :=
  kind = .timestampTz -> settings.overlapSeconds = 0 -> wm.value < first - settings.gap ->
    EmptyWindow columns settings kind first wm rows ->
      forall row, row ∈ rows -> columns.watermark row = some (first - settings.gap) ->
        wm.lastId < columns.id row

theorem lowerBound_le (limited : Bounded kind) (overlap : 0 ≤ settings.overlapSeconds) (wm : Mark) :
    lowerBound settings wm kind ≤ wm.value ∧
      (lowerBound settings wm kind = wm.value -> kind = .timestampTz ∧ settings.overlapSeconds = 0) := by
  rcases limited with rfl | rfl
  · simp only [lowerBound, IncrementalSettings.overlap, microsPerSecond]
    exact ⟨by omega, fun same => ⟨trivial, by omega⟩⟩
  · simp only [lowerBound, IncrementalSettings.overlapDays]
    exact ⟨by omega, fun same => by omega⟩

/-- A row that was too late for the first window lies above the lower bound from
its watermark. -/
theorem aboveLower_of_late (limited : Bounded kind) (overlap : 0 ≤ settings.overlapSeconds) {hi : Int}
    (upper : upperBound settings now kind = some hi) (clear : BoundaryClear columns settings kind now wm rows)
    {row : ρ} (member : row ∈ rows) (above : AboveLower columns settings kind wm row)
    (late : ¬ BelowUpper columns settings kind now row) :
    AboveLower columns settings kind (runIncremental columns settings kind now wm rows).watermark row := by
  unfold BelowUpper at late
  push Not at late
  rcases late with ⟨other, value, upperToo, carries, beyond⟩
  rw [upper] at upperToo
  cases upperToo
  rcases watermark_cases limited upper with same | less | ⟨room, empty, moved⟩
  · rw [same]
    exact above
  · have lower := (lowerBound_le limited overlap
      (runIncremental columns settings kind now wm rows).watermark).1
    exact ⟨value, carries, Or.inl (lt_of_le_of_lt lower (lt_of_lt_of_le less beyond))⟩
  · rw [moved]
    rcases lowerBound_le limited overlap { value := hi, lastId := wm.lastId } with ⟨lower, level⟩
    rcases lt_or_eq_of_le (le_trans lower beyond) with under | same
    · exact ⟨value, carries, Or.inl under⟩
    · have atBound : value = hi := le_antisymm (same ▸ lower) beyond
      rcases level (same.trans atBound) with ⟨zoned, none⟩
      refine ⟨value, carries, Or.inr ⟨same, ?_⟩⟩
      subst zoned
      cases upper
      have behind : wm.value < now - settings.gap := by
        simpa only [lowerBound, IncrementalSettings.overlap, none, Int.zero_mul, Int.sub_zero] using room
      exact clear rfl none behind empty row member (atBound ▸ carries)

/-- Two ticks leave no row out between their windows exactly when, without an
overlap, no row waits at the bound of an empty first window with an old id. -/
theorem noGap_iff_boundaryClear (limited : Bounded kind) (overlap : 0 ≤ settings.overlapSeconds)
    {first second : Int} (increasing : first < second) (stored : Option Mark) (rows : List ρ) :
    NoGap columns settings kind first second stored rows ↔
      BoundaryClear columns settings kind first (stored.getD Mark.initial) rows := by
  let wm := stored.getD Mark.initial
  rcases upperBound_of_bounded limited settings first with ⟨hi, upper⟩
  constructor
  · rintro noGap rfl none behind empty row member atBound
    have upperFirst : upperBound settings first .timestampTz = some (first - settings.gap) := rfl
    have noOverlap : settings.overlap = 0 := by
      rw [IncrementalSettings.overlap, none]
      rfl
    have lower : forall mark : Mark, lowerBound settings mark .timestampTz = mark.value := by
      intro mark
      simp only [lowerBound, noOverlap, Int.sub_zero]
    have moved : (runIncremental columns settings .timestampTz first wm rows).watermark =
        { value := first - settings.gap, lastId := wm.lastId } :=
      watermark_of_empty limited upperFirst ((lower wm).symm ▸ behind) empty
    have stays : Mark.advance stored { value := first - settings.gap, lastId := wm.lastId } =
        { value := first - settings.gap, lastId := wm.lastId } := by
      cases stored with
      | none => rfl
      | some mark => exact if_pos (Or.inl behind)
    have above : AboveLower columns settings .timestampTz wm row :=
      ⟨_, atBound, Or.inl ((lower wm).symm ▸ behind)⟩
    have below : BelowUpper columns settings .timestampTz second row := by
      rintro other value ⟨⟩ carries
      rw [atBound] at carries
      cases carries
      omega
    rcases noGap row member above below with early | late
    · rcases (mem_runIncremental_iff limited).mp early with ⟨_, _, under⟩
      exact absurd (under _ _ upperFirst atBound) (lt_irrefl _)
    · change row ∈ (runIncremental columns settings .timestampTz second (Mark.advance stored
        (runIncremental columns settings .timestampTz first wm rows).watermark) rows).rows at late
      rw [moved, stays] at late
      rcases (mem_runIncremental_iff limited).mp late with ⟨_, ⟨value, carries, beyond⟩, _⟩
      rw [atBound] at carries
      cases carries
      rw [lower] at beyond
      rcases beyond with less | ⟨_, ids⟩
      · exact absurd less (lt_irrefl _)
      · exact ids
  · intro clear row member above below
    by_cases early : BelowUpper columns settings kind first row
    · exact Or.inl ((mem_runIncremental_iff limited).mpr ⟨member, above, early⟩)
    · right
      refine (mem_runIncremental_iff limited).mpr ⟨member, ?_, below⟩
      rcases Mark.advance_cases stored (runIncremental columns settings kind first wm rows).watermark with
        new | kept
      · change AboveLower columns settings kind (Mark.advance stored
          (runIncremental columns settings kind first wm rows).watermark) row
        rw [new]
        exact aboveLower_of_late limited overlap upper clear member above early
      · change AboveLower columns settings kind (Mark.advance stored
          (runIncremental columns settings kind first wm rows).watermark) row
        rw [kept]
        exact above

/-- Rows of a watermark value and an id. -/
def pairColumns : WatermarkColumns (Int × Int) :=
  { watermark := fun row => some row.1, id := fun row => row.2 }

/-- A row of day 20 with an old id is in the second window, whose lower bound is
a day before the bound of the empty first one. -/
theorem no_gap_between_days :
    NoGap pairColumns { overlapSeconds := 0, gapSeconds := 30 } .date (20 * microsPerDay + 60000000)
      (21 * microsPerDay + 60000000) (some { value := 18, lastId := 5 }) [(20, 3)] := by
  refine (noGap_iff_boundaryClear (Or.inr rfl) (by decide) (by decide) _ _).mpr ?_
  rintro ⟨⟩

/-- Nothing of the ten seconds before the first tick is found, and the row at its
bound has an older id than the watermark: the second tick leaves it out. -/
theorem row_at_bound_is_left_out :
    ¬ NoGap pairColumns { overlapSeconds := 0, gapSeconds := 0 } .timestampTz 10000000 20000000
      (some { value := 0, lastId := 5 }) [(10000000, 3)] := by
  intro noGap
  have taken := noGap (10000000, 3) List.mem_cons_self ⟨10000000, rfl, Or.inl (by decide)⟩ (by
    rintro hi value ⟨⟩ ⟨⟩
    decide)
  revert taken
  decide

end Incremental
end WarehouseSync

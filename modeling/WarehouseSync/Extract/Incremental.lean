import WarehouseSync.Extract.Chunker
import WarehouseSync.Library.KeyedRows
import WarehouseSync.State.Watermarks

namespace WarehouseSync
namespace Incremental

open Watermarks Chunker KeyedRows

/-!
# One window of an incremental sync (`extract/incremental.py`)

Watermarks are marks here: the value counted from the default of its kind
(microseconds of Unix time, days since 1970, or the integer itself) together
with the id of the last row.  A window starts behind the mark by the overlap,
and the time-bounded kinds stop short of the clock by the safety gap.
-/

universe u v

/-- A watermark as the windows compare it: the value as a number from the default
on, and the id.  The kinds of columns differ only in what the number counts. -/
structure Mark where
  value : Int
  lastId : Int
deriving DecidableEq, Repr

/-- The comparison of two pairs, in SQL as in Python. -/
def Mark.precedes (first second : Mark) : Prop :=
  first.value < second.value ∨ (first.value = second.value ∧ first.lastId < second.lastId)

instance decidablePrecedes (first second : Mark) : Decidable (first.precedes second) :=
  inferInstanceAs (Decidable (_ ∨ _))

/-- What `get_watermark` returns where nothing is stored. -/
def Mark.initial : Mark :=
  { value := 0, lastId := 0 }

/-- The forward-only upsert of `set_watermark`.  A mark that is not later leaves the
stored one, so that two ticks may finish in either order. -/
def Mark.advance (stored : Option Mark) (attempted : Mark) : Mark :=
  match stored with
  | none => attempted
  | some mark => if mark.precedes attempted then attempted else mark

theorem Mark.advance_cases (stored : Option Mark) (attempted : Mark) :
    Mark.advance stored attempted = attempted ∨
      Mark.advance stored attempted = stored.getD Mark.initial := by
  cases stored with
  | none => exact Or.inl rfl
  | some mark =>
      unfold Mark.advance
      by_cases later : mark.precedes attempted
      · exact Or.inl (if_pos later)
      · exact Or.inr (if_neg later)

/-- A stored watermark as a mark.  The default of its kind is zero, and all marks
are counted from it. -/
def markOf {kind : WatermarkKind} (wm : Watermark kind) : Mark :=
  { value := kind.rank wm.value - kind.rank (defaultValue kind), lastId := wm.lastId }

theorem precedes_markOf {kind : WatermarkKind} (first second : Watermark kind) :
    (markOf first).precedes (markOf second) ↔ first.rank < second.rank := by
  unfold Mark.precedes markOf Watermark.rank
  rw [Prod.Lex.toLex_lt_toLex]
  simp only
  constructor
  · rintro (earlier | ⟨same, below⟩)
    · exact Or.inl (by omega)
    · exact Or.inr ⟨by omega, below⟩
  · rintro (earlier | ⟨same, below⟩)
    · exact Or.inl (by omega)
    · exact Or.inr ⟨by omega, below⟩

/-- A store whose row was written by `set_watermark` is a register of marks. -/
theorem markOf_write {kind : WatermarkKind} (stored wm : Watermark kind) :
    Exists fun after : Watermark kind =>
      write kind (some (rowOf kind stored)) wm = some (rowOf kind after) ∧
        markOf after = Mark.advance (some (markOf stored)) (markOf wm) := by
  by_cases older : wm.rank ≤ stored.rank
  · refine ⟨stored, write_older (current_rowOf kind stored) older, ?_⟩
    have still : ¬ (markOf stored).precedes (markOf wm) := by
      rw [precedes_markOf]
      exact not_lt_of_ge older
    exact (if_neg still).symm
  · refine ⟨wm, write_newer (current_rowOf kind stored) older, ?_⟩
    have later : (markOf stored).precedes (markOf wm) := by
      rw [precedes_markOf]
      exact lt_of_not_ge older
    exact (if_pos later).symm

/-- The settings `incremental_overlap_seconds` and
`incremental_safety_gap_seconds`. -/
structure IncrementalSettings where
  overlapSeconds : Int
  gapSeconds : Int
deriving DecidableEq, Repr

def microsPerSecond : Int := 1000000

def IncrementalSettings.overlap (settings : IncrementalSettings) : Int :=
  settings.overlapSeconds * microsPerSecond

def IncrementalSettings.gap (settings : IncrementalSettings) : Int :=
  settings.gapSeconds * microsPerSecond

/-- At least a day, rounded up to whole days.  A day that is still going on is
thereby read again, whatever the overlap in seconds is. -/
def IncrementalSettings.overlapDays (settings : IncrementalSettings) : Int :=
  max 1 ((settings.overlapSeconds + 86399) / 86400)

structure Window where
  lo : Int
  hi : Option Int
deriving DecidableEq, Repr

/-- A time-bounded window, unless it is empty.  An empty one sends no query at all,
and the watermark stays. -/
def bounded (lo hi : Int) : Option Window :=
  if hi ≤ lo then none else some { lo := lo, hi := some hi }

/-- The window of a kind; there is none when its bounds leave no room.  Naive times
and integers have no clock to be compared with, and are not bounded above. -/
def windowFor (settings : IncrementalSettings) (now : Int) (wm : Mark) : WatermarkKind -> Option Window
  | .timestampTz => bounded (wm.value - settings.overlap) (now - settings.gap)
  | .timestampNaive => some { lo := wm.value - settings.overlap, hi := none }
  | .date => bounded (wm.value - settings.overlapDays) ((now - settings.gap) / microsPerDay)
  | .integer => some { lo := wm.value, hi := none }

/-- The upper bound, if the kind is bounded by the clock. -/
def upperBound (settings : IncrementalSettings) (now : Int) : WatermarkKind -> Option Int
  | .timestampTz => some (now - settings.gap)
  | .date => some ((now - settings.gap) / microsPerDay)
  | .timestampNaive => none
  | .integer => none

/-- The watermark column and the primary key of the source rows.  Ids are not NULL
here; what becomes of rows without one is settled where the whole function is
modelled. -/
structure WatermarkColumns (ρ : Type u) where
  watermark : ρ -> Option Int
  id : ρ -> Int

variable {ρ : Type u}

/-- The predicate of the COPY statement; it is not satisfied by a NULL.  The lower
bound is a comparison of pairs with the stored id, the upper one of values only. -/
def Window.selects (columns : WatermarkColumns ρ) (window : Window) (lastId : Int) (row : ρ) : Bool :=
  match columns.watermark row with
  | none => false
  | some value =>
      decide ({ value := window.lo, lastId := lastId : Mark }.precedes
        { value := value, lastId := columns.id row }) &&
        window.hi.all (fun hi => decide (value < hi))

/-- `ORDER BY` the watermark column and the primary key. -/
def WatermarkColumns.inOrder (columns : WatermarkColumns ρ) (first second : ρ) : Prop :=
  (columns.watermark first).getD 0 < (columns.watermark second).getD 0 ∨
    ((columns.watermark first).getD 0 = (columns.watermark second).getD 0 ∧
      columns.id first ≤ columns.id second)

instance decidableInOrder (columns : WatermarkColumns ρ) : DecidableRel columns.inOrder :=
  fun _ _ => inferInstanceAs (Decidable (_ ∨ _))

def Window.rows (columns : WatermarkColumns ρ) (window : Window) (lastId : Int) (rows : List ρ) : List ρ :=
  (rows.filter (window.selects columns lastId)).insertionSort columns.inOrder

/-- The running maximum over the copied rows.  Rows come in their order, but the
code does not rely on it and compares each. -/
def raise (columns : WatermarkColumns ρ) (best : Mark) (row : ρ) : Mark :=
  match columns.watermark row with
  | none => best
  | some value =>
      if best.precedes { value := value, lastId := columns.id row } then
        { value := value, lastId := columns.id row }
      else best

/-- What `run_incremental` returns: the rows of the staged file, if one was written,
and the new watermark.  An empty window writes no file. -/
structure Extraction (ρ : Type u) where
  staged : Option (List ρ)
  watermark : Mark
deriving DecidableEq

/-- `run_incremental` for a supported kind, on what its transaction sees.  A window
without rows still moves a bounded watermark, to its upper bound and with the id it
had. -/
def runIncremental (columns : WatermarkColumns ρ) (settings : IncrementalSettings) (kind : WatermarkKind)
    (now : Int) (wm : Mark) (rows : List ρ) : Extraction ρ :=
  match windowFor settings now wm kind with
  | none => { staged := none, watermark := wm }
  | some window =>
      match window.rows columns wm.lastId rows with
      | [] =>
          match window.hi with
          | some hi => { staged := none, watermark := { value := hi, lastId := wm.lastId } }
          | none => { staged := none, watermark := wm }
      | staged => { staged := some staged, watermark := staged.foldl (raise columns) wm }

/-- The rows that are merged afterwards. -/
def Extraction.rows (extraction : Extraction ρ) : List ρ :=
  extraction.staged.getD []

/-! ## What a window holds and how far the watermark moves -/

variable {columns : WatermarkColumns ρ} {settings : IncrementalSettings} {kind : WatermarkKind}
  {now : Int} {wm : Mark} {rows : List ρ}

theorem hi_of_bounded {lo hi : Int} {window : Window} (planned : bounded lo hi = some window) :
    window.hi = some hi := by
  unfold bounded at planned
  split at planned
  · cases planned
  · cases planned
    rfl

theorem hi_of_windowFor {window : Window} (planned : windowFor settings now wm kind = some window) :
    window.hi = upperBound settings now kind := by
  cases kind with
  | timestampTz => exact hi_of_bounded planned
  | date => exact hi_of_bounded planned
  | timestampNaive =>
      cases planned
      rfl
  | integer =>
      cases planned
      rfl

theorem mem_windowRows {window : Window} {lastId : Int} {row : ρ} :
    row ∈ window.rows columns lastId rows ↔ row ∈ rows ∧ window.selects columns lastId row = true := by
  unfold Window.rows
  rw [List.mem_insertionSort, List.mem_filter]

/-- The staged rows are the rows of the window, and none if there is no window. -/
theorem rows_runIncremental :
    (runIncremental columns settings kind now wm rows).rows =
      ((windowFor settings now wm kind).map (fun window => window.rows columns wm.lastId rows)).getD [] := by
  unfold runIncremental
  cases windowFor settings now wm kind with
  | none => rfl
  | some window =>
      simp only [Option.map_some, Option.getD_some]
      cases window.rows columns wm.lastId rows with
      | nil =>
          cases window.hi with
          | none => rfl
          | some hi => rfl
      | cons first rest => rfl

theorem mem_runIncremental {row : ρ} :
    row ∈ (runIncremental columns settings kind now wm rows).rows ↔
      Exists fun window : Window => windowFor settings now wm kind = some window ∧ row ∈ rows ∧
        window.selects columns wm.lastId row = true := by
  rw [rows_runIncremental]
  cases windowFor settings now wm kind with
  | none => simp
  | some window => simp [mem_windowRows]

/-- A window stages each source row once. -/
theorem uniqueKeys_runIncremental {κ : Type v} {key : ρ -> Option κ} (unique : UniqueKeys key rows) :
    UniqueKeys key (runIncremental columns settings kind now wm rows).rows := by
  rw [rows_runIncremental]
  cases windowFor settings now wm kind with
  | none => exact List.nodup_nil
  | some window =>
      have kept : UniqueKeys key (rows.filter (window.selects columns wm.lastId)) :=
        unique.sublist List.filter_sublist
      have permuted : (window.rows columns wm.lastId rows).Perm
          (rows.filter (window.selects columns wm.lastId)) := List.perm_insertionSort _ _
      exact (permuted.filterMap key).nodup_iff.mpr kept

theorem raise_cases (best : Mark) (row : ρ) :
    raise columns best row = best ∨ columns.watermark row = some (raise columns best row).value := by
  unfold raise
  cases columns.watermark row with
  | none => exact Or.inl rfl
  | some value =>
      by_cases later : best.precedes { value := value, lastId := columns.id row }
      · exact Or.inr (by simp only [if_pos later])
      · exact Or.inl (by simp only [if_neg later])

/-- The running maximum stays, or comes to the value of one of the rows. -/
theorem foldl_raise_cases (staged : List ρ) (best : Mark) :
    staged.foldl (raise columns) best = best ∨
      Exists fun row : ρ => row ∈ staged ∧
        columns.watermark row = some (staged.foldl (raise columns) best).value := by
  induction staged generalizing best with
  | nil => exact Or.inl rfl
  | cons row rest ih =>
      rw [List.foldl_cons]
      rcases ih (raise columns best row) with same | ⟨later, member, carries⟩
      · rw [same]
        rcases raise_cases best row with unchanged | carries
        · exact Or.inl unchanged
        · exact Or.inr ⟨row, List.mem_cons_self, carries⟩
      · exact Or.inr ⟨later, List.mem_cons_of_mem _ member, carries⟩

/-- The new watermark is the old one, the upper bound of the window, or the
value of a row in it. -/
theorem watermark_runIncremental :
    (runIncremental columns settings kind now wm rows).watermark = wm ∨
      Exists fun window : Window => windowFor settings now wm kind = some window ∧
        (window.hi = some (runIncremental columns settings kind now wm rows).watermark.value ∨
          Exists fun row : ρ => row ∈ rows ∧ window.selects columns wm.lastId row = true ∧
            columns.watermark row =
              some (runIncremental columns settings kind now wm rows).watermark.value) := by
  unfold runIncremental
  cases planned : windowFor settings now wm kind with
  | none => exact Or.inl rfl
  | some window =>
      cases staged : window.rows columns wm.lastId rows with
      | nil =>
          cases bound : window.hi with
          | none => exact Or.inl (by simp only [staged, bound])
          | some hi => exact Or.inr ⟨window, rfl, Or.inl (by simp only [staged, bound])⟩
      | cons first rest =>
          simp only [staged]
          rcases foldl_raise_cases (first :: rest) wm with same | ⟨row, member, carries⟩
          · exact Or.inl same
          · have selected := mem_windowRows.mp (staged ▸ member)
            exact Or.inr ⟨window, rfl, Or.inr ⟨row, selected.1, selected.2, carries⟩⟩

/-- A row of a window has a value above the lower and below the upper bound. -/
theorem selects_iff {window : Window} {lastId : Int} {row : ρ} :
    window.selects columns lastId row = true ↔
      Exists fun value : Int => columns.watermark row = some value ∧
        (window.lo < value ∨ (window.lo = value ∧ lastId < columns.id row)) ∧
        forall hi, window.hi = some hi -> value < hi := by
  unfold Window.selects
  cases columns.watermark row with
  | none => simp
  | some value =>
      simp only [Bool.and_eq_true, decide_eq_true_eq, Option.some.injEq, exists_eq_left']
      apply and_congr Iff.rfl
      cases window.hi with
      | none => simp
      | some hi => simp

end Incremental
end WarehouseSync

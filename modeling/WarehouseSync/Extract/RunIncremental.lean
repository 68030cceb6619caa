import WarehouseSync.Extract.Incremental
import WarehouseSync.Extract.Schema

namespace WarehouseSync
namespace RunIncremental

open Chunker Incremental Schema Watermarks

/-!
# `run_incremental` with everything that ends it early (`extract/incremental.py`)

The column list decides whether there is a window at all, the stored watermark
may not parse, and ids may be NULL, as they are in views.  A NULL id compares to
nothing: SQL leaves such a row out at the lower bound of the window, and Python
raises when the running maximum has the same value already.  Over rows with ids
it all comes down to the window of `Incremental`.
-/

universe u

/-- The watermark column and the primary key, both possibly NULL.  A view has no
constraints, so that neither can be relied on. -/
structure NullableColumns (ρ : Type u) where
  watermark : ρ -> Option Int
  id : ρ -> Option Int

/-- The running maximum; its id is NULL if that row's is.  Such a maximum can be
reached but not stored. -/
structure Reached where
  value : Int
  lastId : Option Int
deriving DecidableEq, Repr

def reachedOf (mark : Mark) : Reached :=
  { value := mark.value, lastId := some mark.lastId }

/-- What `set_watermark` can store: `last_id` is NOT NULL. -/
def Reached.mark (reached : Reached) : Option Mark :=
  reached.lastId.map (fun lastId => { value := reached.value, lastId := lastId })

variable {ρ : Type u}

/-- The row comparison with a possibly NULL id.  It is decided by the values alone
unless they are equal, and only then does the id matter. -/
def NullableColumns.selects (columns : NullableColumns ρ) (window : Window) (lastId : Int) (row : ρ) : Bool :=
  match columns.watermark row with
  | none => false
  | some value =>
      (decide (window.lo < value) ||
        (decide (window.lo = value) && satisfies (columns.id row) (fun id => decide (lastId < id)))) &&
        window.hi.all (fun hi => decide (value < hi))

/-- `ORDER BY` sorts NULLs last. -/
def nullsLast : Option Int -> Option Int -> Prop
  | _, none => True
  | none, some _ => False
  | some first, some second => first ≤ second

instance decidableNullsLast : DecidableRel nullsLast
  | _, none => isTrue trivial
  | none, some _ => isFalse (fun held => held)
  | some first, some second => inferInstanceAs (Decidable (first ≤ second))

def NullableColumns.inOrder (columns : NullableColumns ρ) (first second : ρ) : Prop :=
  (columns.watermark first).getD 0 < (columns.watermark second).getD 0 ∨
    ((columns.watermark first).getD 0 = (columns.watermark second).getD 0 ∧
      nullsLast (columns.id first) (columns.id second))

instance decidableNullableInOrder (columns : NullableColumns ρ) : DecidableRel columns.inOrder :=
  fun _ _ => inferInstanceAs (Decidable (_ ∨ _))

def NullableColumns.rows (columns : NullableColumns ρ) (window : Window) (lastId : Int) (rows : List ρ) :
    List ρ :=
  (rows.filter (columns.selects window lastId)).insertionSort columns.inOrder

/-- `(rv, rid) > (max_val, max_id)` as Python compares tuples: the ids are only
looked at when the values are equal, and a NULL there is a `TypeError` unless both
are NULL. -/
def NullableColumns.raise (columns : NullableColumns ρ) (best : Reached) (row : ρ) : Option Reached :=
  match columns.watermark row with
  | none => some best
  | some value =>
      if value = best.value then
        match columns.id row, best.lastId with
        | some id, some lastId => some (if lastId < id then { value := value, lastId := some id } else best)
        | none, none => some best
        | _, _ => none
      else some (if best.value < value then { value := value, lastId := columns.id row } else best)

structure Extraction (ρ : Type u) where
  staged : Option (List ρ)
  watermark : Reached
deriving DecidableEq

/-- The body for a supported kind; no result is an exception.  The rows are staged
before the maximum is known, so that a comparison that raises leaves an object in S3
but no watermark. -/
def extract (columns : NullableColumns ρ) (settings : IncrementalSettings) (kind : WatermarkKind) (now : Int)
    (wm : Mark) (rows : List ρ) : Option (Extraction ρ) :=
  match windowFor settings now wm kind with
  | none => some { staged := none, watermark := reachedOf wm }
  | some window =>
      match columns.rows window wm.lastId rows with
      | [] =>
          match window.hi with
          | some hi => some { staged := none, watermark := { value := hi, lastId := some wm.lastId } }
          | none => some { staged := none, watermark := reachedOf wm }
      | first :: rest => ((first :: rest).foldlM columns.raise (reachedOf wm)).map (fun watermark =>
          { staged := some (first :: rest), watermark := watermark })

/-- A table or view of the source, as one transaction sees it: its columns, and its
rows with what the window needs of them. -/
structure Source (ρ : Type u) where
  columns : List Column
  accessors : NullableColumns ρ
  rows : List ρ

/-- What a call ends with.  An unsupported column is no error: the job then skips
the object. -/
inductive Result (ρ : Type u) where
  | unsupported
  | raised
  | extracted (kind : WatermarkKind) (extraction : Extraction ρ)

/-- `run_incremental`.  Without a window no SQL is sent; otherwise a missing key
column is an SQL error. -/
def runIncremental (source : Source ρ) (watermarkColumn pk : String) (settings : IncrementalSettings)
    (now : Int) (stored : Option Row) : Result ρ :=
  match kindOfColumn source.columns watermarkColumn with
  | none => .unsupported
  | some kind =>
      match getWatermark kind stored with
      | none => .raised
      | some wm =>
          if (windowFor settings now (markOf wm) kind).isSome = true ∧
              pk ∉ source.columns.map (fun column => column.name) then .raised
          else
            match extract source.accessors settings kind now (markOf wm) source.rows with
            | none => .raised
            | some extraction => .extracted kind extraction

/-- The rows that are merged afterwards. -/
def Extraction.rows (extraction : Extraction ρ) : List ρ :=
  extraction.staged.getD []

/-- Columns without NULL ids. -/
def ofTotal (columns : WatermarkColumns ρ) : NullableColumns ρ :=
  { watermark := columns.watermark, id := fun row => some (columns.id row) }

theorem selects_ofTotal (columns : WatermarkColumns ρ) (window : Window) (lastId : Int) (row : ρ) :
    (ofTotal columns).selects window lastId row = window.selects columns lastId row := by
  unfold NullableColumns.selects Window.selects
  cases carries : columns.watermark row with
  | none => simp only [ofTotal, carries]
  | some value =>
      simp only [ofTotal, carries, satisfies]
      congr 1
      rw [Bool.eq_iff_iff, decide_eq_true_iff]
      simp [Mark.precedes]

theorem rows_ofTotal (columns : WatermarkColumns ρ) (window : Window) (lastId : Int) (rows : List ρ) :
    (ofTotal columns).rows window lastId rows = window.rows columns lastId rows := by
  have same : (ofTotal columns).selects window lastId = window.selects columns lastId :=
    funext (selects_ofTotal columns window lastId)
  unfold NullableColumns.rows Window.rows
  rw [same]
  rfl

theorem raise_ofTotal (columns : WatermarkColumns ρ) (best : Mark) (row : ρ) :
    (ofTotal columns).raise (reachedOf best) row = some (reachedOf (Incremental.raise columns best row)) := by
  unfold NullableColumns.raise Incremental.raise
  cases carries : columns.watermark row with
  | none => simp only [ofTotal, carries]
  | some value =>
      simp only [ofTotal, carries, reachedOf, Mark.precedes]
      by_cases same : value = best.value
      · subst same
        by_cases later : best.lastId < columns.id row
        · simp [later]
        · simp [later]
      · by_cases above : best.value < value
        · simp [same, above]
        · simp [same, above, Ne.symm same]

theorem foldlM_raise_ofTotal (columns : WatermarkColumns ρ) (staged : List ρ) (best : Mark) :
    staged.foldlM (ofTotal columns).raise (reachedOf best) =
      some (reachedOf (staged.foldl (Incremental.raise columns) best)) := by
  induction staged generalizing best with
  | nil => rfl
  | cons row rest ih =>
      rw [List.foldlM_cons, raise_ofTotal, List.foldl_cons]
      exact ih (Incremental.raise columns best row)

/-- Without NULL ids nothing raises, and the window is the one of `Incremental`. -/
theorem extract_ofTotal (columns : WatermarkColumns ρ) (settings : IncrementalSettings)
    (kind : WatermarkKind) (now : Int) (wm : Mark) (rows : List ρ) :
    extract (ofTotal columns) settings kind now wm rows =
      some { staged := (Incremental.runIncremental columns settings kind now wm rows).staged
             watermark := reachedOf (Incremental.runIncremental columns settings kind now wm rows).watermark } := by
  unfold extract Incremental.runIncremental
  cases windowFor settings now wm kind with
  | none => rfl
  | some window =>
      simp only [rows_ofTotal]
      cases window.rows columns wm.lastId rows with
      | nil =>
          cases window.hi with
          | none => rfl
          | some hi => rfl
      | cons first rest =>
          simp only [foldlM_raise_ofTotal]
          rfl

/-! ## What a window holds and how far it raises the watermark -/

variable {columns : NullableColumns ρ} {settings : IncrementalSettings} {kind : WatermarkKind}
  {now : Int} {wm : Mark} {rows : List ρ}

theorem mem_rows {window : Window} {lastId : Int} {row : ρ} :
    row ∈ columns.rows window lastId rows ↔ row ∈ rows ∧ columns.selects window lastId row = true := by
  unfold NullableColumns.rows
  rw [List.mem_insertionSort, List.mem_filter]

/-- A selected row has a value, and below the upper bound. -/
theorem value_of_selects {window : Window} {lastId : Int} {row : ρ}
    (selected : columns.selects window lastId row = true) :
    Exists fun value : Int => columns.watermark row = some value ∧
      forall hi, window.hi = some hi -> value < hi := by
  unfold NullableColumns.selects at selected
  cases carries : columns.watermark row with
  | none =>
      rw [carries] at selected
      cases selected
  | some value =>
      rw [carries] at selected
      refine ⟨value, rfl, fun hi bound => ?_⟩
      have below := (Bool.and_eq_true_iff.mp selected).2
      rw [bound] at below
      exact of_decide_eq_true below

theorem raise_cases {best after : Reached} {row : ρ} (raised : columns.raise best row = some after) :
    after = best ∨ columns.watermark row = some after.value := by
  unfold NullableColumns.raise at raised
  cases carries : columns.watermark row with
  | none =>
      rw [carries] at raised
      cases raised
      exact Or.inl rfl
  | some value =>
      simp only [carries] at raised
      by_cases same : value = best.value
      · rw [if_pos same] at raised
        split at raised
        · cases raised
          split
          · exact Or.inr rfl
          · exact Or.inl rfl
        · cases raised
          exact Or.inl rfl
        · cases raised
      · rw [if_neg same] at raised
        cases raised
        split
        · exact Or.inr rfl
        · exact Or.inl rfl

theorem foldlM_raise_cases (staged : List ρ) {best after : Reached}
    (raised : staged.foldlM columns.raise best = some after) :
    after = best ∨ Exists fun row : ρ => row ∈ staged ∧ columns.watermark row = some after.value := by
  induction staged generalizing best with
  | nil =>
      cases raised
      exact Or.inl rfl
  | cons row rest ih =>
      rw [List.foldlM_cons] at raised
      rcases Option.bind_eq_some_iff.mp raised with ⟨next, first, later⟩
      rcases ih later with rfl | ⟨found, member, carries⟩
      · rcases raise_cases first with unchanged | carries
        · exact Or.inl unchanged
        · exact Or.inr ⟨row, List.mem_cons_self, carries⟩
      · exact Or.inr ⟨found, List.mem_cons_of_mem _ member, carries⟩

/-- The new watermark is the old one, or its value is the upper bound of the
window or that of a row below the bound. -/
theorem watermark_extract {extraction : Extraction ρ}
    (extracted : extract columns settings kind now wm rows = some extraction) :
    extraction.watermark = reachedOf wm ∨
      upperBound settings now kind = some extraction.watermark.value ∨
      Exists fun row : ρ => row ∈ rows ∧ columns.watermark row = some extraction.watermark.value ∧
        forall hi, upperBound settings now kind = some hi -> extraction.watermark.value < hi := by
  unfold extract at extracted
  cases planned : windowFor settings now wm kind with
  | none =>
      rw [planned] at extracted
      cases extracted
      exact Or.inl rfl
  | some window =>
      simp only [planned] at extracted
      rw [← hi_of_windowFor planned]
      cases staged : columns.rows window wm.lastId rows with
      | nil =>
          simp only [staged] at extracted
          cases bound : window.hi with
          | none =>
              rw [bound] at extracted
              cases extracted
              exact Or.inl rfl
          | some hi =>
              rw [bound] at extracted
              cases extracted
              exact Or.inr (Or.inl rfl)
      | cons first rest =>
          simp only [staged] at extracted
          rcases Option.map_eq_some_iff.mp extracted with ⟨watermark, folded, rfl⟩
          rcases foldlM_raise_cases _ folded with same | ⟨row, member, carries⟩
          · exact Or.inl same
          · rw [← staged] at member
            rcases mem_rows.mp member with ⟨present, selected⟩
            rcases value_of_selects selected with ⟨value, valued, below⟩
            have same : value = watermark.value := Option.some.inj (valued.symm.trans carries)
            exact Or.inr (Or.inr ⟨row, present, carries, same ▸ below⟩)

end RunIncremental
end WarehouseSync

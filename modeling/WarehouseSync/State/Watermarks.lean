import WarehouseSync.Library.IsoFormat
import WarehouseSync.Library.PythonText
import Mathlib.Data.Prod.Lex
import Mathlib.Order.Bounds.Basic

namespace WarehouseSync
namespace Watermarks

open DecimalText IsoFormat

/-!
# The watermark store (`state/watermarks.py`)

One row of `pipeline_watermarks` keeps the watermark of one table of one
connection.  The value is kept as text and read back according to the kind of
the watermark column; rows that predate the text column only have a timestamp.
A write is one transaction under a row lock, so concurrent runs are some
sequence of writes.
-/

inductive WatermarkKind where
  | timestampTz
  | timestampNaive
  | date
  | integer
deriving DecidableEq, Repr

/-- What a column of the kind holds.  The value of a watermark depends on its kind,
so that a day cannot be compared with an instant, and the default and the text of a
value are given kind by kind as in the source. -/
abbrev WatermarkKind.Value : WatermarkKind -> Type
  | .timestampTz => AwareDateTime
  | .timestampNaive => DateTime
  | .date => Date
  | .integer => Int

/-- A position in a table: the value of the watermark column, and the greatest id
among the rows that have it.  The id settles which of several rows with one value
have been read. -/
structure Watermark (kind : WatermarkKind) where
  value : kind.Value
  lastId : Int

def epochDate : Date :=
  { year := 1970, month := 1, day := 1, inRange := by decide }

def epochNaive : DateTime :=
  DateTime.midnight epochDate

def epoch : AwareDateTime :=
  { wall := epochNaive, offset := utc }

def defaultValue : (kind : WatermarkKind) -> kind.Value
  | .integer => (0 : Int)
  | .date => epochDate
  | .timestampNaive => epochNaive
  | .timestampTz => epoch

/-- The position of a value in the order of its kind: instants, wall-clock times,
days and numbers.  Aware times with different offsets may be the same instant, so
the order is on these numbers and not on the texts or the fields. -/
def WatermarkKind.rank : (kind : WatermarkKind) -> kind.Value -> Int
  | .timestampTz, value => AwareDateTime.instant value
  | .timestampNaive, value => DateTime.micros value
  | .date, value => Date.toordinal value
  | .integer, value => value

/-- Watermarks are compared like the pair of value and `last_id`, the value first,
as tuples are in Python. -/
def Watermark.rank {kind : WatermarkKind} (wm : Watermark kind) : Int ×ₗ Int :=
  toLex (kind.rank wm.value, wm.lastId)

def serialize : (kind : WatermarkKind) -> kind.Value -> String
  | .timestampTz, value => String.ofList (AwareDateTime.isoformat value)
  | .timestampNaive, value => String.ofList (DateTime.isoformat value)
  | .date, value => String.ofList (Date.isoformat value)
  | .integer, value => String.ofList (intText value)

/-- `_parse`; no result stands for its `ValueError`.  The stored text may have been
written for another kind than the one it is read for, after a change of the column's
type, so everything `int` and `fromisoformat` accept matters here and not only what
`serialize` writes: the number of an integer column can read as a day. -/
def parse (kind : WatermarkKind) (text : String) : Option kind.Value :=
  match kind with
  | .integer => PythonText.readInt text.toList
  | .date => Date.fromisoformat text.toList
  | .timestampNaive => (DateTime.fromisoformat text.toList).map (fun parsed => parsed.1)
  | .timestampTz => (DateTime.fromisoformat text.toList).map (fun parsed =>
      { wall := parsed.1, offset := parsed.2.getD utc })

/-- Every value is read back from the text it is stored as. -/
theorem parse_serialize (kind : WatermarkKind) (value : kind.Value) :
    parse kind (serialize kind value) = some value := by
  cases kind with
  | timestampTz => simp [parse, serialize]
  | timestampNaive => simp [parse, serialize]
  | date => simp [parse, serialize]
  | integer => simp [parse, serialize, PythonText.readInt_intText]

/-- The watermark 20260526 of an integer column reads as a day of May 2026. -/
example : (parse .date (serialize .integer (20260526 : Int))).map (fun date => (date.year, date.month, date.day)) =
    some (2026, 5, 26) := by decide

/-- A row of `pipeline_watermarks`.  `last_value` is NULL in rows written before the
column existed, and `last_ts` in rows of other than timezone-aware timestamps;
readers have to make do with either, and that is where they can disagree. -/
structure Row where
  lastValue : Option String
  lastTs : Option AwareDateTime
  lastId : Int
deriving DecidableEq

/-- The value a row without `last_value` is read as, if not the default.  Only the
two kinds of timestamps ever had such rows; a naive one is the wall clock of the
stored instant. -/
def legacyValue : (kind : WatermarkKind) -> Option AwareDateTime -> Option kind.Value
  | .timestampTz, lastTs => lastTs
  | .timestampNaive, lastTs => lastTs.map (fun value => value.wall)
  | .date, _ => none
  | .integer, _ => none

def getWatermark (kind : WatermarkKind) : Option Row -> Option (Watermark kind)
  | none => some { value := defaultValue kind, lastId := 0 }
  | some row =>
      match row.lastValue with
      | some text => (parse kind text).map (fun value => { value := value, lastId := row.lastId })
      | none => some
          { value := (legacyValue kind row.lastTs).getD (defaultValue kind), lastId := row.lastId }

/-- The columns a write stores.  Every kind writes its text, and a timezone-aware
one fills the old column as well. -/
def rowOf : (kind : WatermarkKind) -> Watermark kind -> Row
  | .timestampTz, wm =>
      { lastValue := some (serialize .timestampTz wm.value), lastTs := some wm.value, lastId := wm.lastId }
  | kind, wm => { lastValue := some (serialize kind wm.value), lastTs := none, lastId := wm.lastId }

/-- The pair that `set_watermark` compares the attempted one with.  Unlike
`get_watermark` it does not look at `last_ts`: a row without a text counts as the
default value there. -/
def current (kind : WatermarkKind) (row : Row) : Option (Watermark kind) :=
  match row.lastValue with
  | some text => (parse kind text).map (fun value => { value := value, lastId := row.lastId })
  | none => some { value := defaultValue kind, lastId := row.lastId }

/-- The row after one call, or no result when parsing the stored text raises.  The
write is conditional on being greater, so that a late writer does not take the row
back. -/
def setWatermark (kind : WatermarkKind) (wm : Watermark kind) : Option Row -> Option Row
  | none => some (rowOf kind wm)
  | some row => (current kind row).map (fun stored =>
      if wm.rank ≤ stored.rank then row else rowOf kind wm)

/-- The store after one call.  A call that raises is rolled back, so that a row
whose text does not parse stays as it is, however often it is written. -/
def write (kind : WatermarkKind) (stored : Option Row) (wm : Watermark kind) : Option Row :=
  match setWatermark kind wm stored with
  | some row => some row
  | none => stored

theorem current_rowOf (kind : WatermarkKind) (wm : Watermark kind) :
    current kind (rowOf kind wm) = some wm := by
  cases kind <;> simp [current, rowOf, parse_serialize]

theorem getWatermark_rowOf (kind : WatermarkKind) (wm : Watermark kind) :
    getWatermark kind (some (rowOf kind wm)) = some wm := by
  cases kind <;> simp [getWatermark, rowOf, parse_serialize]

theorem write_older {kind : WatermarkKind} {row : Row} {stored wm : Watermark kind}
    (compared : current kind row = some stored) (older : wm.rank ≤ stored.rank) :
    write kind (some row) wm = some row := by
  simp [write, setWatermark, compared, older]

theorem write_newer {kind : WatermarkKind} {row : Row} {stored wm : Watermark kind}
    (compared : current kind row = some stored) (newer : ¬ wm.rank ≤ stored.rank) :
    write kind (some row) wm = some (rowOf kind wm) := by
  simp [write, setWatermark, compared, newer]

/-- After a sequence of writes the row is the old one, if none of them exceeds
what it is compared with, and otherwise the row of the greatest of them. -/
theorem foldl_write {kind : WatermarkKind} {row : Row} {stored : Watermark kind}
    (compared : current kind row = some stored) (writes : List (Watermark kind)) :
    ((forall wm, wm ∈ writes -> wm.rank ≤ stored.rank) ∧
      writes.foldl (write kind) (some row) = some row) ∨
    (Exists fun newest : Watermark kind => newest ∈ writes ∧ stored.rank < newest.rank ∧
      (forall wm, wm ∈ writes -> wm.rank ≤ newest.rank) ∧
      writes.foldl (write kind) (some row) = some (rowOf kind newest)) := by
  induction writes generalizing row stored with
  | nil =>
      refine Or.inl ⟨?_, rfl⟩
      intro wm member
      cases member
  | cons first writes ih =>
      rw [List.foldl_cons]
      by_cases older : first.rank ≤ stored.rank
      · rw [write_older compared older]
        rcases ih compared with ⟨bounded, kept⟩ | ⟨newest, member, above, bounded, written⟩
        · exact Or.inl ⟨List.forall_mem_cons.mpr ⟨older, bounded⟩, kept⟩
        · refine Or.inr ⟨newest, List.mem_cons_of_mem _ member, above, ?_, written⟩
          exact List.forall_mem_cons.mpr ⟨le_of_lt (lt_of_le_of_lt older above), bounded⟩
      · rw [write_newer compared older]
        have above := not_le.mp older
        rcases ih (current_rowOf kind first) with
          ⟨bounded, kept⟩ | ⟨newest, member, later, bounded, written⟩
        · exact Or.inr ⟨first, List.mem_cons_self, above,
            List.forall_mem_cons.mpr ⟨le_refl _, bounded⟩, kept⟩
        · refine Or.inr ⟨newest, List.mem_cons_of_mem _ member, lt_trans above later, ?_, written⟩
          exact List.forall_mem_cons.mpr ⟨le_of_lt later, bounded⟩

/-! ## The store as a register -/

/-- The pairs among which a forward-only register must hold the greatest: what was
read before, and everything that was written. -/
def offered {kind : WatermarkKind} (before : Watermark kind) (writes : List (Watermark kind)) :
    Set (Int ×ₗ Int) :=
  fun rank => rank = before.rank ∨ Exists fun wm : Watermark kind => wm ∈ writes ∧ rank = wm.rank

/-- Reading the row after the writes gives the greatest of the pair read before and
of the pairs written.  The order of the writes does not occur in it, so that
concurrent writers may interleave in any way. -/
def IsRegister (kind : WatermarkKind) (row : Row) (before : Watermark kind)
    (writes : List (Watermark kind)) : Prop :=
  Exists fun after : Watermark kind =>
    getWatermark kind (writes.foldl (write kind) (some row)) = some after ∧
      IsGreatest (offered before writes) after.rank

/-- A legacy timestamp row is shown as its timestamp but compared as the epoch.
This is harmless when the writes that get past the epoch reach the timestamp, or
when no write gets past the epoch and none exceeds the timestamp.  A row with a
text, or of another kind, always meets it. -/
def LegacyReached (kind : WatermarkKind) (row : Row) (writes : List (Watermark kind)) : Prop :=
  row.lastValue = none -> forall legacy, legacyValue kind row.lastTs = some legacy ->
    let shown : Int ×ₗ Int := toLex (kind.rank legacy, row.lastId)
    let compared : Int ×ₗ Int := toLex (kind.rank (defaultValue kind), row.lastId)
    (Exists fun wm : Watermark kind => wm ∈ writes ∧ shown ≤ wm.rank ∧ compared < wm.rank) ∨
      forall wm, wm ∈ writes -> wm.rank ≤ shown ∧ wm.rank ≤ compared

/-- The row is a register between the pair it shows and the pair it compares
with exactly when the writes reach the shown pair, or none of them counts. -/
theorem isRegister_iff_of_current {kind : WatermarkKind} {row : Row}
    {before stored : Watermark kind} (shown : getWatermark kind (some row) = some before)
    (compared : current kind row = some stored) (writes : List (Watermark kind)) :
    IsRegister kind row before writes ↔
      (Exists fun wm : Watermark kind =>
        wm ∈ writes ∧ before.rank ≤ wm.rank ∧ stored.rank < wm.rank) ∨
      forall wm, wm ∈ writes -> wm.rank ≤ before.rank ∧ wm.rank ≤ stored.rank := by
  rw [IsRegister]
  rcases foldl_write compared writes with ⟨bounded, kept⟩ | ⟨newest, member, above, bounded, written⟩
  · rw [kept, shown]
    constructor
    · rintro ⟨after, ⟨⟩, greatest⟩
      exact Or.inr (fun wm listed => ⟨greatest.2 (Or.inr ⟨wm, listed, rfl⟩), bounded wm listed⟩)
    · intro reached
      refine ⟨before, rfl, Or.inl rfl, ?_⟩
      rintro rank (same | ⟨wm, listed, same⟩)
      · exact le_of_eq same
      · rcases reached with ⟨other, otherListed, _, beyond⟩ | within
        · exact absurd (bounded other otherListed) (not_le.mpr beyond)
        · rw [same]
          exact (within wm listed).1
  · rw [written, getWatermark_rowOf]
    constructor
    · rintro ⟨after, ⟨⟩, greatest⟩
      exact Or.inl ⟨newest, member, greatest.2 (Or.inl rfl), above⟩
    · intro reached
      refine ⟨newest, rfl, Or.inr ⟨newest, member, rfl⟩, ?_⟩
      rintro rank (same | ⟨wm, listed, same⟩)
      · rw [same]
        rcases reached with ⟨other, otherListed, reaches, _⟩ | within
        · exact le_trans reaches (bounded other otherListed)
        · exact absurd (within newest member).2 (not_le.mpr above)
      · rw [same]
        exact bounded wm listed

/-- A row whose shown and compared pairs agree is a register for all writes. -/
theorem isRegister_of_agree {kind : WatermarkKind} {row : Row} {before : Watermark kind}
    (shown : getWatermark kind (some row) = some before)
    (compared : current kind row = some before) (writes : List (Watermark kind)) :
    IsRegister kind row before writes := by
  refine (isRegister_iff_of_current shown compared writes).mpr ?_
  by_cases beyond : Exists fun wm : Watermark kind => wm ∈ writes ∧ before.rank < wm.rank
  · rcases beyond with ⟨wm, member, above⟩
    exact Or.inl ⟨wm, member, le_of_lt above, above⟩
  · refine Or.inr (fun wm member => ?_)
    have within : wm.rank ≤ before.rank := not_lt.mp (fun above => beyond ⟨wm, member, above⟩)
    exact ⟨within, within⟩

/-- Values survive the text column, and an existing row is a forward-only
register exactly when no legacy timestamp is overtaken from below. -/
theorem register_iff (kind : WatermarkKind) (row : Row) {before : Watermark kind}
    (shown : getWatermark kind (some row) = some before) (writes : List (Watermark kind)) :
    (forall value : kind.Value, parse kind (serialize kind value) = some value) ∧
      (IsRegister kind row before writes ↔ LegacyReached kind row writes) := by
  refine ⟨parse_serialize kind, ?_⟩
  cases stored : row.lastValue with
  | some text =>
      have compared : current kind row = some before := by
        simpa only [current, getWatermark, stored] using shown
      exact ⟨fun _ absent => by simp [stored] at absent,
        fun _ => isRegister_of_agree shown compared writes⟩
  | none =>
      have compared : current kind row = some { value := defaultValue kind, lastId := row.lastId } := by
        simp only [current, stored]
      simp only [getWatermark, stored, Option.some.injEq] at shown
      cases legacy : legacyValue kind row.lastTs with
      | none =>
          rw [legacy] at shown
          subst shown
          have same : getWatermark kind (some row) =
              some { value := defaultValue kind, lastId := row.lastId } := by
            simp only [getWatermark, stored, legacy, Option.getD_none]
          refine ⟨fun _ _ value present => ?_, fun _ => isRegister_of_agree same compared writes⟩
          rw [legacy] at present
          cases present
      | some value =>
          rw [legacy] at shown
          subst shown
          have same : getWatermark kind (some row) = some { value := value, lastId := row.lastId } := by
            simp only [getWatermark, stored, legacy, Option.getD_some]
          rw [Option.getD_some, isRegister_iff_of_current same compared writes]
          constructor
          · intro reached _ other present
            rw [legacy] at present
            cases present
            exact reached
          · intro reached
            exact reached stored value legacy

/-- An hour of 26 May 2026, in UTC. -/
def hourOf (hour : Nat) (inDay : hour < 24) : AwareDateTime :=
  { wall :=
      { date := { year := 2026, month := 5, day := 26, inRange := by decide }
        clock := { hour := hour, minute := 0, second := 0, microsecond := 0 }
        inRange := ⟨inDay, Nat.succ_pos _, Nat.succ_pos _, Nat.succ_pos _⟩ }
    offset := utc }

def legacyNoon : Row :=
  { lastValue := none, lastTs := some (hourOf 12 (by decide)), lastId := 999 }

def noon : Watermark .timestampTz :=
  { value := hourOf 12 (by decide), lastId := 999 }

def tenOClock : Watermark .timestampTz :=
  { value := hourOf 10 (by decide), lastId := 1 }

def oneOClock : Watermark .timestampTz :=
  { value := hourOf 13 (by decide), lastId := 1 }

theorem register_of_later_write :
    IsRegister .timestampTz legacyNoon noon [tenOClock, oneOClock] := by
  refine ((register_iff .timestampTz legacyNoon rfl [tenOClock, oneOClock]).2).mpr ?_
  rintro _ legacy ⟨⟩
  exact Or.inl ⟨oneOClock, by simp, by decide, by decide⟩

/-- A run that is late by two hours moves the watermark of a legacy row back. -/
theorem legacy_watermark_goes_back :
    getWatermark .timestampTz (some legacyNoon) = some noon ∧
      ¬ IsRegister .timestampTz legacyNoon noon [tenOClock] := by
  have shown : getWatermark .timestampTz (some legacyNoon) = some noon := rfl
  have compared : current .timestampTz legacyNoon = some { value := epoch, lastId := 999 } := rfl
  refine ⟨shown, ?_⟩
  rw [isRegister_iff_of_current shown compared]
  rintro (⟨wm, member, reaches, _⟩ | within)
  · cases List.mem_singleton.mp member
    exact absurd reaches (by decide)
  · have bounded := (within tenOClock (List.mem_singleton.mpr rfl)).2
    exact absurd bounded (by decide)

end Watermarks
end WarehouseSync

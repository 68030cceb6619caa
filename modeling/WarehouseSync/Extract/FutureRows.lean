import WarehouseSync.Extract.RunIncremental

namespace WarehouseSync
namespace FutureRows

open Incremental RunIncremental Watermarks

/-!
# How far ahead of the clock a watermark can be (`extract/incremental.py`)

Seeding takes the greatest value of the source as it is, and windows of naive
timestamps have no upper bound, since the clock is in another frame.  The other
time-bounded windows stop short of the clock, and so does the watermark they
lead to.  The call that stored the watermark is remembered here together with
what it saw.
-/

universe u

variable {ρ : Type u}

/-- A call that may store a watermark, with what it sees of the source.  The two
queries of `seed_watermark` see the source one after the other, and need not agree.
-/
inductive Call (ρ : Type u) where
  | seed (now : Int) (first second : List ρ)
  | tick (now : Int) (rows : List ρ)

def Call.now : Call ρ -> Int
  | .seed now _ _ => now
  | .tick now _ => now

/-- `max` over a column, which ignores NULLs.  It is the value of any row, also of
one that lies in the future. -/
def greatest (columns : NullableColumns ρ) (rows : List ρ) : Option Int :=
  (rows.filterMap columns.watermark).max?

/-- The mark `seed_watermark` stores, unless the column has no value.  The id is
looked up by a second query and is 0 where the row has gone meanwhile. -/
def seedWatermark (columns : NullableColumns ρ) (first second : List ρ) : Option Mark :=
  (greatest columns first).map (fun value =>
    { value := value
      lastId := (((second.filter (fun row => decide (columns.watermark row = some value))).filterMap
        columns.id).max?).getD 0 })

/-- The stored mark and the call that stored it.  The writer is no column of the
table: it is kept to say where a value comes from. -/
structure Stored (ρ : Type u) where
  mark : Mark
  writer : Call ρ

/-- What `get_watermark` returns. -/
def current (stored : Option (Stored ρ)) : Mark :=
  (stored.map (fun held => held.mark)).getD Mark.initial

/-- The forward-only upsert, on behalf of a call. -/
def store (call : Call ρ) (stored : Option (Stored ρ)) (attempted : Mark) : Option (Stored ρ) :=
  match stored with
  | none => some { mark := attempted, writer := call }
  | some held =>
      if held.mark.precedes attempted then some { mark := attempted, writer := call } else some held

/-- The mark a call offers; none if it stores nothing or raises.  A tick offers what
its window allows, and a seed the greatest value that there is. -/
def offered (settings : IncrementalSettings) (kind : WatermarkKind) (columns : NullableColumns ρ)
    (wm : Mark) : Call ρ -> Option Mark
  | .seed _ first second => seedWatermark columns first second
  | .tick now rows => (extract columns settings kind now wm rows).bind (fun extraction =>
      extraction.watermark.mark)

/-- One call: it reads the stored mark, computes its own, and stores it if that is
later.  Calls are atomic here, since what they store does not depend on who else is
under way. -/
def step (settings : IncrementalSettings) (kind : WatermarkKind) (columns : NullableColumns ρ)
    (stored : Option (Stored ρ)) (call : Call ρ) : Option (Stored ρ) :=
  match offered settings kind columns (current stored) call with
  | none => stored
  | some attempted => store call stored attempted

/-! ## Where the value comes from -/

/-- The value is the default, the greatest one that was seeded, at most the upper
bound of the tick's window, or that of a row the tick saw if there is no bound.  A
value ahead of the clock can only come out of the last two. -/
def Justified (settings : IncrementalSettings) (kind : WatermarkKind) (columns : NullableColumns ρ)
    (value : Int) : Call ρ -> Prop
  | .seed _ first _ => greatest columns first = some value
  | .tick now rows => value = Mark.initial.value ∨
      match upperBound settings now kind with
      | some hi => value ≤ hi
      | none => Exists fun row : ρ => row ∈ rows ∧ columns.watermark row = some value

variable {settings : IncrementalSettings} {kind : WatermarkKind} {columns : NullableColumns ρ}

/-- A mark that is offered is justified, or it is the one that was read, which
would be justified as the default. -/
theorem justified_offered {wm attempted : Mark} {call : Call ρ}
    (offers : offered settings kind columns wm call = some attempted) :
    (attempted = wm ∧ Justified settings kind columns Mark.initial.value call) ∨
      Justified settings kind columns attempted.value call := by
  cases call with
  | seed now first second =>
      rcases Option.map_eq_some_iff.mp offers with ⟨value, most, rfl⟩
      exact Or.inr most
  | tick now rows =>
      rcases Option.bind_eq_some_iff.mp offers with ⟨extraction, extracted, stores⟩
      rcases Option.map_eq_some_iff.mp stores with ⟨lastId, reached, rfl⟩
      rcases watermark_extract extracted with same | bound | ⟨row, member, carries, below⟩
      · rw [same] at reached ⊢
        cases reached
        exact Or.inl ⟨rfl, Or.inl rfl⟩
      · refine Or.inr (Or.inr ?_)
        rw [bound]
      · refine Or.inr (Or.inr ?_)
        cases upper : upperBound settings now kind with
        | none => exact ⟨row, member, carries⟩
        | some hi => exact le_of_lt (below hi upper)

/-- What is stored was stored by one of the calls, and is justified by it.  This is
kept by every call, because a stored mark is replaced whole together with its
writer. -/
def Sound (settings : IncrementalSettings) (kind : WatermarkKind) (columns : NullableColumns ρ)
    (calls : List (Call ρ)) (stored : Option (Stored ρ)) : Prop :=
  forall held, stored = some held -> held.writer ∈ calls ∧
    Justified settings kind columns held.mark.value held.writer

theorem Sound.step {calls : List (Call ρ)} {stored : Option (Stored ρ)}
    (sound : Sound settings kind columns calls stored) {call : Call ρ} (listed : call ∈ calls) :
    Sound settings kind columns calls (step settings kind columns stored call) := by
  unfold FutureRows.step
  cases offers : offered settings kind columns (current stored) call with
  | none => exact sound
  | some attempted =>
      simp only
      cases stored with
      | none =>
          rintro held ⟨⟩
          rcases justified_offered offers with ⟨same, default⟩ | justified
          · rw [same]
            exact ⟨listed, default⟩
          · exact ⟨listed, justified⟩
      | some before =>
          unfold store
          simp only
          split
          · rename_i later
            rintro held ⟨⟩
            rcases justified_offered offers with ⟨same, _⟩ | justified
            · rw [same] at later
              rcases later with less | ⟨_, less⟩
              · exact absurd less (lt_irrefl _)
              · exact absurd less (lt_irrefl _)
            · exact ⟨listed, justified⟩
          · exact sound

/-- After any sequence of calls the stored value is the default, or it was
seeded as the greatest of the source, or it is at most the upper bound of the
tick that stored it; only without an upper bound is it the value of any row that
tick saw. -/
theorem stored_value_justified (settings : IncrementalSettings) (kind : WatermarkKind)
    (columns : NullableColumns ρ) (calls : List (Call ρ)) (held : Stored ρ)
    (stored : calls.foldl (step settings kind columns) none = some held) :
    held.writer ∈ calls ∧ Justified settings kind columns held.mark.value held.writer := by
  have sound : forall (done : List (Call ρ)) (before : Option (Stored ρ)),
      Sound settings kind columns calls before -> (forall call, call ∈ done -> call ∈ calls) ->
        Sound settings kind columns calls (done.foldl (step settings kind columns) before) := by
    intro done
    induction done with
    | nil => exact fun before held _ => held
    | cons call done ih =>
        intro before held listed
        rw [List.foldl_cons]
        exact ih _ (held.step (listed call List.mem_cons_self))
          (fun other member => listed other (List.mem_cons_of_mem _ member))
  apply sound calls none
  · intro none impossible
    cases impossible
  · exact fun call member => member
  · exact stored

def sampleSettings : IncrementalSettings :=
  { overlapSeconds := 2, gapSeconds := 1 }

/-- Rows are pairs of time and id. -/
def sampleColumns : NullableColumns (Int × Int) :=
  { watermark := fun row => some row.1, id := fun row => some row.2 }

/-- A row of second 5 and one of second 1000, which a tick at second 10 leaves
out. -/
def sampleRows : List (Int × Int) :=
  [(5000000, 1), (1000000000, 2)]

theorem tick_stops_at_its_bound : Exists fun held : Stored (Int × Int) =>
    [Call.tick 10000000 sampleRows].foldl (step sampleSettings .timestampTz sampleColumns) none = some held ∧
      held.mark.value = 5000000 ∧ (held.writer ∈ [Call.tick 10000000 sampleRows] ∧
        Justified sampleSettings .timestampTz sampleColumns held.mark.value held.writer) :=
  ⟨{ mark := { value := 5000000, lastId := 1 }, writer := .tick 10000000 sampleRows }, rfl, rfl,
    stored_value_justified sampleSettings .timestampTz sampleColumns [.tick 10000000 sampleRows] _ rfl⟩

/-- Seeding stores the row of the future, and so does a naive tick. -/
theorem future_row_is_stored :
    (Exists fun held : Stored (Int × Int) =>
      [Call.seed 10000000 sampleRows sampleRows].foldl (step sampleSettings .timestampTz sampleColumns) none =
        some held ∧ held.writer.now < held.mark.value) ∧
    (Exists fun held : Stored (Int × Int) =>
      [Call.tick 10000000 sampleRows].foldl (step sampleSettings .timestampNaive sampleColumns) none =
        some held ∧ held.writer.now < held.mark.value) := by
  constructor
  · exact ⟨{ mark := { value := 1000000000, lastId := 2 }, writer := .seed 10000000 sampleRows sampleRows },
      rfl, by decide⟩
  · exact ⟨{ mark := { value := 1000000000, lastId := 2 }, writer := .tick 10000000 sampleRows },
      rfl, by decide⟩

end FutureRows
end WarehouseSync

import Mathlib.Logic.Basic

namespace WarehouseSync
namespace Transition

/-!
# Runs of a guarded step function

A component that takes one step after another is a partial function from a
state and an event to the next state; `none` says that the event is not
enabled.  Executing a list of events is then a function too, so a concrete run
can be evaluated.  Two ways of speaking about the states in between are used
below: `Throughout` asks something of every state a run visits, and `Along`
asks something of every event in the state in which it is taken.
-/

universe u v w

variable {σ : Type u} {ε : Type v} (step : σ -> ε -> Option σ)

/-- Execute the events in order, stopping at the first that is not enabled.  A run
with a result is one whose events were all enabled. -/
def run : σ -> List ε -> Option σ
  | state, [] => some state
  | state, event :: events => (step state event).bind (fun next => run next events)

/-- The property holds of the first state and of every later one.  Events that are
not enabled end the run, and nothing is asked after them. -/
def Throughout (property : σ -> Prop) : σ -> List ε -> Prop
  | state, [] => property state
  | state, event :: events => property state ∧
      forall next, step state event = some next -> Throughout property next events

/-- Every event is taken in a state in which the condition allows it.  The condition
sees the state before the event, never the one after it. -/
def Along (condition : σ -> ε -> Prop) : σ -> List ε -> Prop
  | _, [] => True
  | state, event :: events => condition state event ∧
      forall next, step state event = some next -> Along condition next events

variable {step}

theorem run_cons_eq_some {state last : σ} {event : ε} {events : List ε} :
    run step state (event :: events) = some last ↔
      Exists fun next : σ => step state event = some next ∧ run step next events = some last :=
  Option.bind_eq_some_iff

theorem run_append_eq_some {state last : σ} {first second : List ε} :
    run step state (first ++ second) = some last ↔
      Exists fun middle : σ => run step state first = some middle ∧ run step middle second = some last := by
  induction first generalizing state with
  | nil =>
      constructor
      · exact fun reached => ⟨state, rfl, reached⟩
      · rintro ⟨middle, same, reached⟩
        cases same
        exact reached
  | cons event first ih =>
      rw [List.cons_append, run_cons_eq_some]
      constructor
      · rintro ⟨next, taken, reached⟩
        rcases ih.mp reached with ⟨middle, before, after⟩
        exact ⟨middle, run_cons_eq_some.mpr ⟨next, taken, before⟩, after⟩
      · rintro ⟨middle, before, after⟩
        rcases run_cons_eq_some.mp before with ⟨next, taken, rest⟩
        exact ⟨next, taken, ih.mpr ⟨middle, rest, after⟩⟩

theorem run_concat {state middle next : σ} {events : List ε} {event : ε}
    (reached : run step state events = some middle) (taken : step middle event = some next) :
    run step state (events ++ [event]) = some next :=
  run_append_eq_some.mpr ⟨middle, reached, run_cons_eq_some.mpr ⟨next, taken, rfl⟩⟩

theorem Throughout.first {property : σ -> Prop} {state : σ} {events : List ε}
    (throughout : Throughout step property state events) : property state := by
  cases events with
  | nil => exact throughout
  | cons event events => exact throughout.1

/-- What holds throughout a run holds where each of its prefixes ends. -/
theorem Throughout.at_prefix {property : σ -> Prop} {state middle : σ} {first second : List ε}
    (throughout : Throughout step property state (first ++ second))
    (reached : run step state first = some middle) : property middle := by
  induction first generalizing state with
  | nil =>
      cases reached
      exact throughout.first
  | cons event first ih =>
      rcases run_cons_eq_some.mp reached with ⟨next, taken, rest⟩
      exact ih (throughout.2 next taken) rest

/-- What every step passes on holds throughout every run. -/
theorem throughout_of_first {property : σ -> Prop}
    (passed : forall state event next, property state -> step state event = some next -> property next)
    {state : σ} (events : List ε) (held : property state) : Throughout step property state events := by
  induction events generalizing state with
  | nil => exact held
  | cons event events ih => exact ⟨held, fun next taken => ih (passed state event next held taken)⟩

/-- A weaker condition is met along the same run. -/
theorem Along.mono {stronger weaker : σ -> ε -> Prop}
    (weaken : forall state event, stronger state event -> weaker state event)
    {state : σ} {events : List ε} (along : Along step stronger state events) :
    Along step weaker state events := by
  induction events generalizing state with
  | nil => trivial
  | cons event events ih =>
      exact ⟨weaken state event along.1, fun next taken => ih (along.2 next taken)⟩

theorem Along.and {first second : σ -> ε -> Prop} {state : σ} {events : List ε}
    (left : Along step first state events) (right : Along step second state events) :
    Along step (fun current event => first current event ∧ second current event) state events := by
  induction events generalizing state with
  | nil => trivial
  | cons event events ih =>
      exact ⟨⟨left.1, right.1⟩, fun next taken => ih (left.2 next taken) (right.2 next taken)⟩

/-- The rule backwards.  If every step towards a state with the property starts
in one too, and then meets the condition, a run that ends with the property
meets the condition at every step. -/
theorem along_of_last {property : σ -> Prop} {condition : σ -> ε -> Prop}
    (inherited : forall state event next, step state event = some next -> property next ->
      property state ∧ condition state event)
    {state last : σ} {events : List ε} (reached : run step state events = some last) (held : property last) :
    property state ∧ Along step condition state events := by
  induction events generalizing state with
  | nil =>
      cases reached
      exact ⟨held, trivial⟩
  | cons event events ih =>
      rcases run_cons_eq_some.mp reached with ⟨next, taken, rest⟩
      have later := ih rest
      have here := inherited state event next taken later.1
      refine ⟨here.1, here.2, fun other same => ?_⟩
      cases taken.symm.trans same
      exact later.2

/-- What happens along a run happens after each of its prefixes. -/
theorem along_iff_splits {condition : σ -> ε -> Prop} {state : σ} {events : List ε} :
    Along step condition state events ↔
      forall first event rest middle, events = first ++ event :: rest ->
        run step state first = some middle -> condition middle event := by
  induction events generalizing state with
  | nil =>
      constructor
      · intro _ first event rest middle impossible
        exact absurd impossible.symm (by simp)
      · intro _
        trivial
  | cons head events ih =>
      constructor
      · intro along first event rest middle split reached
        cases first with
        | nil =>
            cases split
            cases reached
            exact along.1
        | cons earlier first =>
            cases split
            rcases run_cons_eq_some.mp reached with ⟨next, taken, after⟩
            exact ih.mp (along.2 next taken) first event rest middle rfl after
      · intro everywhere
        refine ⟨everywhere [] head events state rfl rfl, ?_⟩
        intro next taken
        apply ih.mpr
        intro first event rest middle split reached
        exact everywhere (head :: first) event rest middle (congrArg (List.cons head) split)
          (run_cons_eq_some.mpr ⟨next, taken, reached⟩)

theorem Along.left {condition : σ -> ε -> Prop} {state : σ} {first second : List ε}
    (along : Along step condition state (first ++ second)) : Along step condition state first := by
  apply along_iff_splits.mpr
  intro before event rest middle split reached
  apply along_iff_splits.mp along before event (rest ++ second) middle _ reached
  rw [split, List.append_assoc, List.cons_append]

/-- The invariant rule.  What every allowed event preserves holds of the state
that a run of allowed events ends in. -/
theorem run_invariant {invariant : σ -> Prop} {condition : σ -> ε -> Prop}
    (preserved : forall state event next, invariant state -> condition state event ->
      step state event = some next -> invariant next)
    {state last : σ} {events : List ε} (start : invariant state)
    (along : Along step condition state events) (reached : run step state events = some last) :
    invariant last := by
  induction events generalizing state with
  | nil =>
      cases reached
      exact start
  | cons event events ih =>
      rcases run_cons_eq_some.mp reached with ⟨next, taken, rest⟩
      exact ih (preserved state event next start along.1 taken) (along.2 next taken) rest

/-- What the condition says in a state with the invariant it says along a run. -/
theorem Along.of_invariant {invariant : σ -> Prop} {condition conclusion : σ -> ε -> Prop}
    (preserved : forall state event next, invariant state -> condition state event ->
      step state event = some next -> invariant next)
    (concluded : forall state event, invariant state -> condition state event -> conclusion state event)
    {state : σ} {events : List ε} (start : invariant state) (along : Along step condition state events) :
    Along step conclusion state events := by
  induction events generalizing state with
  | nil => trivial
  | cons event events ih =>
      refine ⟨concluded state event start along.1, fun next taken => ?_⟩
      exact ih (preserved state event next start along.1 taken) (along.2 next taken)

/-- Every run meets the condition that asks for nothing. -/
theorem along_true (state : σ) (events : List ε) : Along step (fun _ _ => True) state events := by
  induction events generalizing state with
  | nil => trivial
  | cons event events ih => exact ⟨trivial, fun next _ => ih next⟩

/-- An invariant of every event needs no condition on the run. -/
theorem run_invariant_always {invariant : σ -> Prop}
    (preserved : forall state event next, invariant state ->
      step state event = some next -> invariant next)
    {state last : σ} {events : List ε} (start : invariant state)
    (reached : run step state events = some last) : invariant last := by
  apply run_invariant _ start (along_true state events) reached
  intro state event next holds _ taken
  exact preserved state event next holds taken

/-- The history rule.  What holds of the empty run, and of a run with one more
step if it holds without it, holds of every run and the state it ends in. -/
theorem run_history {start : σ} {motive : List ε -> σ -> Prop} (initially : motive [] start)
    (extended : forall events event middle next, run step start events = some middle ->
      motive events middle -> step middle event = some next -> motive (events ++ [event]) next)
    {last : σ} {events : List ε} (reached : run step start events = some last) : motive events last := by
  have onward : forall (done rest : List ε) (current : σ), run step start done = some current ->
      motive done current -> run step current rest = some last -> motive (done ++ rest) last := by
    intro done rest
    induction rest generalizing done with
    | nil =>
        intro current _ held ended
        cases ended
        rw [List.append_nil]
        exact held
    | cons event rest ih =>
        intro current before held ended
        rcases run_cons_eq_some.mp ended with ⟨next, taken, after⟩
        have further := ih (done ++ [event]) next (run_concat before taken)
          (extended done event current next before held taken) after
        rw [List.append_assoc] at further
        exact further
  exact onward [] events start rfl initially reached

/-- Where one step keeps the property exactly when its condition holds, a whole
run stays within the property exactly when every step meets the condition.
The background invariant is what both directions may assume of a state. -/
theorem throughout_iff_along {background property : σ -> Prop} {condition : σ -> ε -> Prop}
    (kept : forall state event next, background state -> step state event = some next ->
      background next)
    (exact_step : forall state event next, background state -> property state ->
      step state event = some next -> (property next ↔ condition state event))
    {state last : σ} {events : List ε} (start : background state) (initially : property state)
    (reached : run step state events = some last) :
    Throughout step property state events ↔ Along step condition state events := by
  induction events generalizing state with
  | nil => exact ⟨fun _ => trivial, fun _ => initially⟩
  | cons event events ih =>
      rcases run_cons_eq_some.mp reached with ⟨next, taken, rest⟩
      have later := kept state event next start taken
      have once := exact_step state event next start initially taken
      constructor
      · intro throughout
        have held : property next := (throughout.2 next taken).first
        refine ⟨once.mp held, fun other same => ?_⟩
        cases taken.symm.trans same
        exact (ih later held rest).mp (throughout.2 next taken)
      · intro along
        refine ⟨initially, fun other same => ?_⟩
        cases taken.symm.trans same
        exact (ih later (once.mpr along.1) rest).mpr (along.2 next taken)

/-- The simulation rule.  Two components that are related and take every step
together, or refuse it together, stay so over every run. -/
theorem run_lockstep {τ : Type w} {other : τ -> ε -> Option τ} {related : σ -> τ -> Prop}
    (matched : forall state mirror event, related state mirror ->
      Option.Rel related (step state event) (other mirror event))
    {state : σ} {mirror : τ} (start : related state mirror) (events : List ε) :
    Option.Rel related (run step state events) (run other mirror events) := by
  induction events generalizing state mirror with
  | nil => exact Option.Rel.some start
  | cons event events ih =>
      have once := matched state mirror event start
      unfold run
      cases taken : step state event with
      | none =>
          cases mirrored : other mirror event with
          | none => exact Option.Rel.none
          | some next => rw [taken, mirrored] at once; cases once
      | some next =>
          cases mirrored : other mirror event with
          | none => rw [taken, mirrored] at once; cases once
          | some following =>
              rw [taken, mirrored] at once
              cases once with
              | some again => exact ih again

/-- Whether a concrete run meets a decidable condition can be evaluated. -/
instance decidableAlong {condition : σ -> ε -> Prop} [forall state event, Decidable (condition state event)] :
    forall (state : σ) (events : List ε), Decidable (Along step condition state events)
  | _, [] => isTrue trivial
  | state, event :: events =>
      match taken : step state event with
      | none => decidable_of_iff (condition state event)
          ⟨fun allowed => ⟨allowed, fun _ same => by cases taken.symm.trans same⟩, fun along => along.1⟩
      | some next =>
          have : Decidable (Along step condition next events) := decidableAlong next events
          decidable_of_iff (condition state event ∧ Along step condition next events)
            ⟨fun ⟨allowed, rest⟩ => ⟨allowed, fun _ same => by cases taken.symm.trans same; exact rest⟩,
              fun along => ⟨along.1, along.2 next taken⟩⟩

instance decidableThroughout {property : σ -> Prop} [DecidablePred property] :
    forall (state : σ) (events : List ε), Decidable (Throughout step property state events)
  | state, [] => inferInstanceAs (Decidable (property state))
  | state, event :: events =>
      match taken : step state event with
      | none => decidable_of_iff (property state)
          ⟨fun held => ⟨held, fun _ same => by cases taken.symm.trans same⟩, fun throughout => throughout.1⟩
      | some next =>
          have : Decidable (Throughout step property next events) := decidableThroughout next events
          decidable_of_iff (property state ∧ Throughout step property next events)
            ⟨fun ⟨held, rest⟩ => ⟨held, fun _ same => by cases taken.symm.trans same; exact rest⟩,
              fun throughout => ⟨throughout.1, throughout.2 next taken⟩⟩

end Transition
end WarehouseSync

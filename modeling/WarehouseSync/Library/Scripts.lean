import Mathlib.Data.List.Basic
import Mathlib.Logic.Function.Basic

namespace WarehouseSync
namespace Scripts

/-!
# Scripts of guarded changes

A script changes values one after the other and fails as a whole.  Every change
is guarded: it settles something, and does nothing where that is settled
already.  If no change unsettles what an earlier one has settled, executing the
script again does nothing.

When each statement is about the value at one key, what happens at different
keys is independent.
-/

universe u v

variable {κ : Type u} {α : Type v}

/-- The changes one after the other; the first that fails ends the script. -/
def inTurn : List (α -> Option α) -> α -> Option α
  | [], value => some value
  | change :: changes, value => (change value).bind (inTurn changes)

theorem inTurn_cons_eq_some {change : α -> Option α} {changes : List (α -> Option α)} {value last : α} :
    inTurn (change :: changes) value = some last ↔
      Exists fun next : α => change value = some next ∧ inTurn changes next = some last :=
  Option.bind_eq_some_iff

theorem inTurn_cons_of_some {change : α -> Option α} {value next : α} (changed : change value = some next)
    (changes : List (α -> Option α)) : inTurn (change :: changes) value = inTurn changes next :=
  congrArg (fun result : Option α => result.bind (inTurn changes)) changed

theorem inTurn_cons_of_none {change : α -> Option α} {value : α} (failed : change value = none)
    (changes : List (α -> Option α)) : inTurn (change :: changes) value = none :=
  congrArg (fun result : Option α => result.bind (inTurn changes)) failed

theorem inTurn_singleton (change : α -> Option α) (value : α) : inTurn [change] value = change value :=
  Option.bind_fun_some _

/-- A change with what it settles.  It may only run where that is not settled yet,
and skips itself otherwise, so a script of such changes can be run again. -/
structure Guarded (α : Type v) where
  change : α -> Option α
  Settled : α -> Prop
  settles : forall value next, change value = some next -> Settled next
  skips : forall value, Settled value -> change value = some value

/-- The change leaves settled what was. -/
def Respects (change : α -> Option α) (Settled : α -> Prop) : Prop :=
  forall value next, Settled value -> change value = some next -> Settled next

theorem Respects.inTurn {changes : List (α -> Option α)} {Settled : α -> Prop}
    (respected : forall change, change ∈ changes -> Respects change Settled) {value last : α}
    (settled : Settled value) (done : inTurn changes value = some last) : Settled last := by
  induction changes generalizing value with
  | nil =>
      cases done
      exact settled
  | cons change changes ih =>
      rcases inTurn_cons_eq_some.mp done with ⟨next, changed, rest⟩
      apply ih (fun other member => respected other (List.mem_cons_of_mem _ member)) _ rest
      exact respected change List.mem_cons_self value next settled changed

/-- After the script everything is settled. -/
theorem settled_of_inTurn {script : List (Guarded α)}
    (respected : script.Pairwise (fun earlier later => Respects later.change earlier.Settled)) {value last : α}
    (done : inTurn (script.map Guarded.change) value = some last) :
    forall guarded, guarded ∈ script -> guarded.Settled last := by
  induction script generalizing value with
  | nil => exact List.forall_mem_nil _
  | cons first script ih =>
      rw [List.map_cons] at done
      rcases inTurn_cons_eq_some.mp done with ⟨next, changed, rest⟩
      have parts := List.pairwise_cons.mp respected
      refine List.forall_mem_cons.mpr ⟨?_, ih parts.2 rest⟩
      apply Respects.inTurn _ (first.settles value next changed) rest
      intro change member
      rcases List.mem_map.mp member with ⟨later, listed, rfl⟩
      exact parts.1 later listed

theorem inTurn_of_settled {script : List (Guarded α)} {value : α}
    (settled : forall guarded, guarded ∈ script -> guarded.Settled value) :
    inTurn (script.map Guarded.change) value = some value := by
  induction script with
  | nil => rfl
  | cons first script ih =>
      have parts := List.forall_mem_cons.mp settled
      exact inTurn_cons_eq_some.mpr ⟨value, first.skips value parts.1, ih parts.2⟩

/-- Executing the script again does nothing. -/
theorem inTurn_again {script : List (Guarded α)}
    (respected : script.Pairwise (fun earlier later => Respects later.change earlier.Settled)) {value last : α}
    (done : inTurn (script.map Guarded.change) value = some last) :
    inTurn (script.map Guarded.change) last = some last :=
  inTurn_of_settled (settled_of_inTurn respected done)

/-! ## Changes at many keys -/

/-- A change of what is under one key.  Statements at different keys do not see each
other. -/
structure Statement (κ : Type u) (α : Type v) where
  key : κ
  change : α -> Option α

variable [DecidableEq κ]

def execute (state : κ -> α) (statement : Statement κ α) : Option (κ -> α) :=
  (statement.change (state statement.key)).map (Function.update state statement.key)

def executeAll : List (Statement κ α) -> (κ -> α) -> Option (κ -> α)
  | [], state => some state
  | statement :: script, state => (execute state statement).bind (executeAll script)

/-- What the script does at one key. -/
def changesAt (key : κ) (script : List (Statement κ α)) : List (α -> Option α) :=
  (script.filter (fun statement => decide (statement.key = key))).map Statement.change

theorem changesAt_cons_self (statement : Statement κ α) (script : List (Statement κ α)) :
    changesAt statement.key (statement :: script) = statement.change :: changesAt statement.key script := by
  simp [changesAt]

theorem changesAt_cons_of_ne {key : κ} {statement : Statement κ α} (other : statement.key ≠ key)
    (script : List (Statement κ α)) : changesAt key (statement :: script) = changesAt key script := by
  simp [changesAt, other]

/-- A script is executed key by key. -/
theorem executeAll_eq_some_iff {script : List (Statement κ α)} {state after : κ -> α} :
    executeAll script state = some after ↔
      forall key, inTurn (changesAt key script) (state key) = some (after key) := by
  induction script generalizing state with
  | nil =>
      constructor
      · rintro ⟨⟩ key
        rfl
      · intro same
        exact congrArg some (funext (fun key => Option.some.inj (same key)))
  | cons statement script ih =>
      constructor
      · intro done key
        rcases Option.bind_eq_some_iff.mp done with ⟨middle, first, rest⟩
        rcases Option.map_eq_some_iff.mp first with ⟨next, changed, rfl⟩
        have later := ih.mp rest key
        by_cases here : statement.key = key
        · subst here
          rw [Function.update_self] at later
          rw [changesAt_cons_self]
          exact inTurn_cons_eq_some.mpr ⟨next, changed, later⟩
        · rw [Function.update_of_ne (Ne.symm here)] at later
          rw [changesAt_cons_of_ne here]
          exact later
      · intro everywhere
        have here := everywhere statement.key
        rw [changesAt_cons_self] at here
        rcases inTurn_cons_eq_some.mp here with ⟨next, changed, onward⟩
        refine Option.bind_eq_some_iff.mpr ⟨_, Option.map_eq_some_iff.mpr ⟨next, changed, rfl⟩, ih.mpr ?_⟩
        intro key
        by_cases same : statement.key = key
        · subst same
          rw [Function.update_self]
          exact onward
        · rw [Function.update_of_ne (Ne.symm same), ← changesAt_cons_of_ne same script]
          exact everywhere key

/-- It succeeds when it does so at every key. -/
theorem executeAll_isSome_iff {script : List (Statement κ α)} {state : κ -> α} :
    (executeAll script state).isSome = true ↔
      forall key, (inTurn (changesAt key script) (state key)).isSome = true := by
  constructor
  · intro done key
    rcases Option.isSome_iff_exists.mp done with ⟨after, executed⟩
    exact Option.isSome_iff_exists.mpr ⟨_, executeAll_eq_some_iff.mp executed key⟩
  · intro everywhere
    have chosen (key : κ) := Option.some_get (everywhere key)
    exact Option.isSome_iff_exists.mpr
      ⟨fun key => (inTurn (changesAt key script) (state key)).get (everywhere key),
        executeAll_eq_some_iff.mpr (fun key => (chosen key).symm)⟩

end Scripts
end WarehouseSync

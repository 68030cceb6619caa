import Mathlib.Logic.Basic

namespace WarehouseSync
namespace Loops

/-!
# Loops as relations between states

A loop that changes some variables is related to the states it starts and ends
in.  Nothing is assumed about termination: a loop that does not end is related
to no final state, so that a final state is something to be proved.  There is at
most one, so that a loop is known once one final state is.
-/

universe u v

variable {α : Type u} {σ : Type v}

/-- `while guard: body`, from a first state to the state in which the guard fails.
As a relation it is only defined where the loop ends, so that it ends is proved
apart. -/
inductive While (guard : σ -> Bool) (body : σ -> σ) : σ -> σ -> Prop
  | exit {state : σ} (stop : guard state = false) : While guard body state state
  | round {state last : σ} (more : guard state = true) (rest : While guard body (body state) last) :
      While guard body state last

/-- `for item in items: body`, where the body is itself such a relation. -/
inductive ForEach (body : α -> σ -> σ -> Prop) : List α -> σ -> σ -> Prop
  | nil {state : σ} : ForEach body [] state state
  | cons {item : α} {items : List α} {state next last : σ} (first : body item state next)
      (rest : ForEach body items next last) : ForEach body (item :: items) state last

/-- A loop that ends somewhere ends there only. -/
theorem While.unique {guard : σ -> Bool} {body : σ -> σ} {state last other : σ}
    (ended : While guard body state last) (again : While guard body state other) : other = last := by
  induction ended with
  | exit stop =>
      cases again with
      | exit _ => rfl
      | round more _ => exact absurd (stop.symm.trans more) Bool.false_ne_true
  | round more _ ih =>
      cases again with
      | exit stop => exact absurd (stop.symm.trans more) Bool.false_ne_true
      | round _ rest => exact ih rest

/-- A loop over a list whose body computes a function is a fold. -/
theorem forEach_iff_foldl {body : α -> σ -> σ -> Prop} {compute : σ -> α -> σ}
    (each : forall item state next, body item state next ↔ next = compute state item)
    (items : List α) (state last : σ) :
    ForEach body items state last ↔ last = items.foldl compute state := by
  induction items generalizing state with
  | nil =>
      constructor
      · intro ended
        cases ended
        rfl
      · intro same
        rw [same]
        exact ForEach.nil
  | cons item items ih =>
      rw [List.foldl_cons, ← ih]
      constructor
      · intro ended
        cases ended with
        | cons first rest =>
            rw [(each _ _ _).mp first] at rest
            exact rest
      · exact ForEach.cons ((each _ _ _).mpr rfl)

end Loops
end WarehouseSync

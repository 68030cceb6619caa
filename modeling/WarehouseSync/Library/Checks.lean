import Mathlib.Logic.Basic

namespace WarehouseSync
namespace Checks

/-!
# Chains of checks

A request handler is a chain of checks that end with an error or let the next
one go on.  That a chain succeeds is the conjunction of what its links say.
-/

universe u v

variable {ε : Type u} {α β : Type v}

theorem bind_eq_ok {first : Except ε α} {next : α -> Except ε β} {result : β} :
    (first >>= next) = .ok result ↔ Exists fun value => first = .ok value ∧ next value = .ok result := by
  cases first with
  | error message => simp [bind, Except.bind]
  | ok value => simp [bind, Except.bind]

theorem bind_unit_eq_ok {β : Type} {first : Except ε Unit} {next : Unit -> Except ε β} {result : β} :
    (first >>= next) = .ok result ↔ first = .ok () ∧ next () = .ok result := by
  rw [bind_eq_ok]
  exact ⟨fun ⟨_, passed, done⟩ => ⟨passed, done⟩, fun ⟨passed, done⟩ => ⟨(), passed, done⟩⟩

/-- A check that only asks for a condition. -/
theorem ite_eq_ok {condition : Prop} [Decidable condition] {message : ε} :
    (if condition then .ok () else .error message : Except ε Unit) = .ok () ↔ condition := by
  by_cases held : condition
  · simp [held]
  · simp [held]

end Checks
end WarehouseSync

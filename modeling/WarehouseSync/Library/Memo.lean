import Mathlib.Logic.Function.Basic

namespace WarehouseSync
namespace Memo

/-!
# Things that are kept

In a dictionary of things that are built once, the first request for a key
builds and keeps a value, and later ones get the value that was kept.  A value
that expires is kept with the time it was asked for at, and is loaded again when
that was too long ago.
-/

universe u v

variable {κ : Type u} {β : Type v} [DecidableEq κ]

/-- What an updated dictionary holds was there before, or is new. -/
theorem update_eq_some {held : κ -> Option β} {key other : κ} {value found : β}
    (kept : Function.update held key (some value) other = some found) :
    held other = some found ∨ (other = key ∧ found = value) := by
  by_cases same : other = key
  · subst same
    have now : some value = some found := (Function.update_self other (some value) held).symm.trans kept
    exact Or.inr ⟨rfl, (Option.some.inj now).symm⟩
  · exact Or.inl ((Function.update_of_ne same (some value) held).symm.trans kept)

/-- The value under the key, and the dictionary afterwards.  A fresh value is only
used when there is none, so an old one is never replaced. -/
def remember (held : κ -> Option β) (key : κ) (fresh : β) : β × (κ -> Option β) :=
  match held key with
  | some value => (value, held)
  | none => (fresh, Function.update held key (some fresh))

theorem remember_fst (held : κ -> Option β) (key : κ) (fresh : β) :
    (remember held key fresh).1 = (held key).getD fresh := by
  unfold remember
  cases held key with
  | none => rfl
  | some value => rfl

/-- What a request returns is what the dictionary holds from then on. -/
theorem remember_self (held : κ -> Option β) (key : κ) (fresh : β) :
    (remember held key fresh).2 key = some ((held key).getD fresh) := by
  unfold remember
  cases kept : held key with
  | none => exact Function.update_self key (some fresh) held
  | some value => exact kept

/-- Nothing that is kept changes. -/
theorem remember_of_some {held : κ -> Option β} {other : κ} {value : β} (kept : held other = some value)
    (key : κ) (fresh : β) : (remember held key fresh).2 other = some value := by
  unfold remember
  cases found : held key with
  | some _ => exact kept
  | none =>
      have different : other ≠ key := fun same => by
        rw [same, found] at kept
        cases kept
      exact (Function.update_of_ne different (some fresh) held).trans kept

/-- What is kept was kept before, or was built by this request. -/
theorem remember_eq_some {held : κ -> Option β} {key other : κ} {fresh value : β}
    (kept : (remember held key fresh).2 other = some value) :
    held other = some value ∨ (other = key ∧ value = fresh) := by
  unfold remember at kept
  cases found : held key with
  | some _ =>
      rw [found] at kept
      exact Or.inl kept
  | none =>
      rw [found] at kept
      exact update_eq_some kept

/-! ## A value that expires -/

variable {α : Type u}

/-- Nothing is kept, or the caller insists, or what is kept has expired.  The time
is that of the caller, who may have taken it a while ago. -/
def mustLoad (ttl : Int) (kept : Option (Int × α)) (force : Bool) (now : Int) : Bool :=
  match kept with
  | none => true
  | some (stamp, _) => force || decide (ttl ≤ now - stamp)

/-- What is kept from now on, with its stamp.  The stamp is the caller's time and
not that of the loading. -/
def refreshed (ttl : Int) (kept : Option (Int × α)) (force : Bool) (now : Int) (loaded : α) : Int × α :=
  match kept with
  | none => (now, loaded)
  | some entry => if mustLoad ttl (some entry) force now = true then (now, loaded) else entry

theorem refreshed_of_mustLoad {ttl : Int} {kept : Option (Int × α)} {force : Bool} {now : Int}
    (must : mustLoad ttl kept force now = true) (loaded : α) :
    refreshed ttl kept force now loaded = (now, loaded) := by
  cases kept with
  | none => rfl
  | some entry => exact if_pos must

/-- It is what was kept before, or what is loaded now. -/
theorem refreshed_cases (ttl : Int) (kept : Option (Int × α)) (force : Bool) (now : Int) (loaded : α) :
    kept = some (refreshed ttl kept force now loaded) ∨
      refreshed ttl kept force now loaded = (now, loaded) := by
  cases must : mustLoad ttl kept force now with
  | true => exact Or.inr (refreshed_of_mustLoad must loaded)
  | false =>
      cases kept with
      | none => cases must
      | some entry =>
          refine Or.inl (congrArg some (Eq.symm (if_neg ?_)))
          rw [must]
          exact Bool.false_ne_true

/-- Whether it has expired does not depend on what is kept. -/
theorem refreshed_map (ttl : Int) (kept : Option (Int × α)) (force : Bool) (now : Int)
    (loaded : α) (image : α -> β) :
    refreshed ttl (kept.map (Prod.map id image)) force now (image loaded) =
      Prod.map id image (refreshed ttl kept force now loaded) := by
  cases kept with
  | none => rfl
  | some entry =>
      change (if mustLoad ttl (some entry) force now = true then (now, image loaded) else
        Prod.map id image entry) = Prod.map id image (if mustLoad ttl (some entry) force now = true then
          (now, loaded) else entry)
      split
      · rfl
      · rfl

end Memo
end WarehouseSync

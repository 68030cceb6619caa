import Mathlib.Data.List.Nodup

namespace WarehouseSync
namespace Dictionaries

/-!
# Dictionaries that keep the order of insertion

A dictionary is the list of its entries.  Setting a name that is present changes
the value in its place, and a new name goes to the end.
-/

universe u

variable {α : Type u}

/-- `members[name] = value`: an old entry keeps its place, and a new one comes last.
-/
def setItem (members : List (String × α)) (name : String) (value : α) : List (String × α) :=
  match members with
  | [] => [(name, value)]
  | (old, kept) :: members =>
      if old = name then (name, value) :: members else (old, kept) :: setItem members name value

/-- `dict(pairs)`.  Of pairs with one name the last one gives the value and the
first one the place. -/
def dictOf (pairs : List (String × α)) : List (String × α) :=
  pairs.foldl (fun members pair => setItem members pair.1 pair.2) []

theorem mem_setItem {members : List (String × α)} {name : String} {value : α} {entry : String × α}
    (member : entry ∈ setItem members name value) : entry = (name, value) ∨ entry ∈ members := by
  induction members with
  | nil => exact Or.inl (List.mem_singleton.mp member)
  | cons first members ih =>
      cases first with
      | mk old kept =>
          rw [setItem] at member
          by_cases same : old = name
          · rw [if_pos same] at member
            cases List.mem_cons.mp member with
            | inl here => exact Or.inl here
            | inr rest => exact Or.inr (List.mem_cons_of_mem _ rest)
          · rw [if_neg same] at member
            cases List.mem_cons.mp member with
            | inl here => exact Or.inr (List.mem_cons.mpr (Or.inl here))
            | inr rest =>
                cases ih rest with
                | inl new => exact Or.inl new
                | inr earlier => exact Or.inr (List.mem_cons_of_mem _ earlier)

theorem nodup_setItem {members : List (String × α)} (unique : (members.map Prod.fst).Nodup)
    (name : String) (value : α) : ((setItem members name value).map Prod.fst).Nodup := by
  induction members with
  | nil => exact List.nodup_singleton name
  | cons first members ih =>
      cases first with
      | mk old kept =>
          rw [List.map_cons, List.nodup_cons] at unique
          rw [setItem]
          by_cases same : old = name
          · rw [if_pos same, List.map_cons, List.nodup_cons, ← same]
            exact unique
          · rw [if_neg same, List.map_cons, List.nodup_cons]
            refine ⟨?_, ih unique.2⟩
            intro listed
            rcases List.mem_map.mp listed with ⟨entry, member, carries⟩
            cases mem_setItem member with
            | inl new =>
                rw [new] at carries
                exact same carries.symm
            | inr earlier => exact unique.1 (List.mem_map.mpr ⟨entry, earlier, carries⟩)

theorem setItem_of_absent {members : List (String × α)} {name : String} (value : α)
    (absent : name ∉ members.map Prod.fst) : setItem members name value = members ++ [(name, value)] := by
  induction members with
  | nil => rfl
  | cons first members ih =>
      cases first with
      | mk old kept =>
          rw [List.map_cons, List.mem_cons, not_or] at absent
          rw [setItem, if_neg (Ne.symm absent.1), ih absent.2, List.cons_append]

theorem nodup_dictOf (pairs : List (String × α)) : ((dictOf pairs).map Prod.fst).Nodup := by
  have kept : forall (members : List (String × α)), (members.map Prod.fst).Nodup ->
      ((pairs.foldl (fun members pair => setItem members pair.1 pair.2) members).map Prod.fst).Nodup := by
    induction pairs with
    | nil =>
        intro members unique
        exact unique
    | cons pair pairs ih =>
        intro members unique
        exact ih _ (nodup_setItem unique pair.1 pair.2)
  exact kept [] List.nodup_nil

theorem mem_dictOf {pairs : List (String × α)} {entry : String × α} (member : entry ∈ dictOf pairs) :
    entry ∈ pairs := by
  have kept : forall (members : List (String × α)),
      entry ∈ pairs.foldl (fun members pair => setItem members pair.1 pair.2) members ->
        entry ∈ members ∨ entry ∈ pairs := by
    clear member
    induction pairs with
    | nil =>
        intro members member
        exact Or.inl member
    | cons pair pairs ih =>
        intro members member
        cases ih _ member with
        | inl set =>
            cases mem_setItem set with
            | inl new => exact Or.inr (List.mem_cons.mpr (Or.inl new))
            | inr earlier => exact Or.inl earlier
        | inr later => exact Or.inr (List.mem_cons_of_mem _ later)
  cases kept [] member with
  | inl impossible => cases impossible
  | inr listed => exact listed

/-- Pairs without a repeated name are the dictionary. -/
theorem dictOf_eq_self {pairs : List (String × α)} (unique : (pairs.map Prod.fst).Nodup) :
    dictOf pairs = pairs := by
  have appended : forall (members : List (String × α)), ((members ++ pairs).map Prod.fst).Nodup ->
      pairs.foldl (fun members pair => setItem members pair.1 pair.2) members = members ++ pairs := by
    clear unique
    induction pairs with
    | nil =>
        intro members _
        exact (List.append_nil members).symm
    | cons pair pairs ih =>
        intro members unique
        have split := unique
        rw [List.map_append, List.map_cons, List.nodup_append] at split
        have absent : pair.1 ∉ members.map Prod.fst := by
          intro listed
          exact split.2.2 _ listed _ List.mem_cons_self rfl
        rw [List.foldl_cons, setItem_of_absent pair.2 absent, ih]
        · rw [List.append_assoc, List.singleton_append]
        · rw [List.append_assoc, List.singleton_append]
          exact unique
  exact appended [] unique

end Dictionaries
end WarehouseSync

import Mathlib.Data.List.Nodup
import Mathlib.Data.List.Sort

namespace WarehouseSync
namespace KeyedRows

/-!
# Tables of rows with a nullable key column

A table is the list of its rows and a key column is a partial function on rows,
`none` being SQL NULL.  The one destructive operation, `overwrite`, deletes the
rows whose key is listed and appends new ones; a NULL key is never listed, so
such rows are only ever appended.  Everything said about a table goes through
`rowsAt`, the rows that carry one given key: it turns filters and appends into
list algebra at each key separately.
-/

universe u v w

variable {ρ : Type u} {κ : Type v} (key : ρ -> Option κ)

/-- The non-null keys of the rows, in order and with repetitions.  A row without a
key has no part in them. -/
def keys (rows : List ρ) : List κ :=
  rows.filterMap key

/-- At most one row carries each non-null key.  Any number of rows may be without
one. -/
def UniqueKeys (rows : List ρ) : Prop :=
  (keys key rows).Nodup

variable {key}

theorem mem_keys {value : κ} {rows : List ρ} :
    value ∈ keys key rows ↔ Exists fun row : ρ => row ∈ rows ∧ key row = some value := by
  simp [keys]

theorem keys_append (left right : List ρ) :
    keys key (left ++ right) = keys key left ++ keys key right :=
  List.filterMap_append

theorem UniqueKeys.sublist {smaller rows : List ρ} (unique : UniqueKeys key rows)
    (part : smaller.Sublist rows) : UniqueKeys key smaller :=
  List.Nodup.sublist (part.filterMap key) unique

theorem uniqueKeys_append {left right : List ρ} :
    UniqueKeys key (left ++ right) ↔ UniqueKeys key left ∧ UniqueKeys key right ∧
      forall value : κ, value ∈ keys key left -> value ∉ keys key right := by
  simp only [UniqueKeys, keys_append, List.nodup_append]
  constructor
  · rintro ⟨first, second, apart⟩
    exact ⟨first, second, fun value before after => apart value before value after rfl⟩
  · rintro ⟨first, second, apart⟩
    refine ⟨first, second, fun value before other after same => ?_⟩
    subst same
    exact apart value before after

variable [DecidableEq κ] (key)

instance uniqueKeysDecidable (rows : List ρ) : Decidable (UniqueKeys key rows) :=
  inferInstanceAs (Decidable (keys key rows).Nodup)

/-- The rows whose key column holds exactly this value.  The value may be NULL, so
every row is at exactly one of them. -/
def rowsAt (value : Option κ) (rows : List ρ) : List ρ :=
  rows.filter (fun row => decide (key row = value))

/-- The filter expression `key IN doomed`; it is not satisfied by a NULL key,
whatever is listed. -/
def matchesIn (doomed : List κ) (row : ρ) : Bool :=
  match key row with
  | some value => decide (value ∈ doomed)
  | none => false

/-- Atomically delete the rows whose key is listed and append the new ones.  The new
rows need not be those of the listed keys. -/
def overwrite (doomed : List κ) (rows fresh : List ρ) : List ρ :=
  rows.filter (fun row => !matchesIn key doomed row) ++ fresh

variable {key}

@[simp] theorem rowsAt_nil (value : Option κ) : rowsAt key value [] = [] := rfl

@[simp] theorem rowsAt_append (value : Option κ) (left right : List ρ) :
    rowsAt key value (left ++ right) = rowsAt key value left ++ rowsAt key value right :=
  List.filter_append left right

theorem mem_rowsAt {value : Option κ} {rows : List ρ} {row : ρ} :
    row ∈ rowsAt key value rows ↔ row ∈ rows ∧ key row = value := by
  simp [rowsAt]

theorem rowsAt_eq_nil_iff {value : Option κ} {rows : List ρ} :
    rowsAt key value rows = [] ↔ value ∉ rows.map key := by
  rw [List.eq_nil_iff_forall_not_mem, List.mem_map]
  constructor
  · rintro empty ⟨row, member, carries⟩
    exact empty row (mem_rowsAt.mpr ⟨member, carries⟩)
  · intro absent row member
    exact absent ⟨row, (mem_rowsAt.mp member).1, (mem_rowsAt.mp member).2⟩

theorem mem_keys_iff_rowsAt {value : κ} {rows : List ρ} :
    value ∈ keys key rows ↔ rowsAt key (some value) rows ≠ [] := by
  rw [mem_keys, ne_eq, List.eq_nil_iff_forall_not_mem]
  constructor
  · rintro ⟨row, member, carries⟩ empty
    exact empty row (mem_rowsAt.mpr ⟨member, carries⟩)
  · intro nonempty
    by_contra absent
    exact nonempty (fun row member => absent ⟨row, (mem_rowsAt.mp member).1, (mem_rowsAt.mp member).2⟩)

/-- Multiplicity of a key among the keys is the number of rows carrying it. -/
theorem count_keys (value : κ) (rows : List ρ) :
    (keys key rows).count value = (rowsAt key (some value) rows).length := by
  induction rows with
  | nil => rfl
  | cons row rows ih =>
      cases carried : key row with
      | none =>
          simp only [keys, rowsAt, List.filterMap_cons, List.filter_cons, carried] at ih ⊢
          simpa using ih
      | some other =>
          simp only [keys, rowsAt, List.filterMap_cons, List.filter_cons, carried,
            List.count_cons] at ih ⊢
          by_cases same : other = value
          · simp [same, ih]
          · simp [same, ih]

/-- A table is, up to order, its rows key by key. -/
theorem perm_of_rowsAt {left right : List ρ}
    (same : forall value : Option κ, rowsAt key value left = rowsAt key value right) :
    left.Perm right := by
  classical
  have counted (rows : List ρ) (row : ρ) : (rowsAt key (key row) rows).count row = rows.count row :=
    List.count_filter (by simp)
  apply List.perm_iff_count.mpr
  intro row
  rw [← counted left row, ← counted right row, same]

theorem uniqueKeys_iff {rows : List ρ} :
    UniqueKeys key rows ↔ forall value : κ, (rowsAt key (some value) rows).length ≤ 1 := by
  simp only [UniqueKeys, List.nodup_iff_count_le_one, count_keys]

/-- Two rows of a table with unique keys that carry the same key are one row. -/
theorem UniqueKeys.eq_of_key {rows : List ρ} (unique : UniqueKeys key rows) {left right : ρ}
    (leftMember : left ∈ rows) (rightMember : right ∈ rows) {value : κ}
    (leftKey : key left = some value) (rightKey : key right = some value) : left = right := by
  have short := uniqueKeys_iff.mp unique value
  have first := mem_rowsAt.mpr ⟨leftMember, leftKey⟩
  have second := mem_rowsAt.mpr ⟨rightMember, rightKey⟩
  match carried : rowsAt key (some value) rows, short with
  | [], _ => rw [carried] at first; cases first
  | [only], _ =>
      rw [carried] at first second
      exact (List.mem_singleton.mp first).trans (List.mem_singleton.mp second).symm
  | _ :: _ :: rest, impossible =>
      simp only [List.length_cons] at impossible
      omega

theorem UniqueKeys.rowsAt_eq {rows : List ρ} (unique : UniqueKeys key rows) {row : ρ}
    (member : row ∈ rows) {value : κ} (carries : key row = some value) :
    rowsAt key (some value) rows = [row] := by
  have here : row ∈ rowsAt key (some value) rows := mem_rowsAt.mpr ⟨member, carries⟩
  have one : (rowsAt key (some value) rows).length = 1 :=
    le_antisymm (uniqueKeys_iff.mp unique value) (List.length_pos_of_mem here)
  rcases List.length_eq_one_iff.mp one with ⟨only, listed⟩
  rw [listed] at here ⊢
  rw [List.mem_singleton.mp here]

/-- Tables with unique keys agree at a key when they hold the same rows of it. -/
theorem UniqueKeys.rowsAt_congr {left right : List ρ} (leftUnique : UniqueKeys key left)
    (rightUnique : UniqueKeys key right) {value : κ}
    (same : forall row, key row = some value -> (row ∈ left ↔ row ∈ right)) :
    rowsAt key (some value) left = rowsAt key (some value) right := by
  by_cases present : value ∈ keys key right
  · rcases mem_keys.mp present with ⟨row, member, carries⟩
    rw [rightUnique.rowsAt_eq member carries, leftUnique.rowsAt_eq ((same row carries).mpr member) carries]
  · have absent : value ∉ keys key left := by
      intro listed
      rcases mem_keys.mp listed with ⟨row, member, carries⟩
      exact present (mem_keys.mpr ⟨row, (same row carries).mp member, carries⟩)
    rw [mem_keys_iff_rowsAt, not_not] at present absent
    rw [present, absent]

/-! ## Overwriting -/

theorem rowsAt_overwrite_some (value : κ) (doomed : List κ) (rows fresh : List ρ) :
    rowsAt key (some value) (overwrite key doomed rows fresh) =
      (if value ∈ doomed then [] else rowsAt key (some value) rows) ++
        rowsAt key (some value) fresh := by
  rw [overwrite, rowsAt_append]
  congr 1
  rw [rowsAt, List.filter_filter]
  by_cases listed : value ∈ doomed
  · rw [if_pos listed, List.filter_eq_nil_iff]
    intro row _ selected
    have both := Bool.and_eq_true_iff.mp selected
    have carries : key row = some value := of_decide_eq_true both.1
    simp [matchesIn, carries, listed] at both
  · rw [if_neg listed]
    apply List.filter_congr
    intro row _
    by_cases carries : key row = some value
    · simp [matchesIn, carries, listed]
    · simp [carries]

theorem rowsAt_overwrite_none (doomed : List κ) (rows fresh : List ρ) :
    rowsAt key none (overwrite key doomed rows fresh) =
      rowsAt key none rows ++ rowsAt key none fresh := by
  rw [overwrite, rowsAt_append]
  congr 1
  rw [rowsAt, List.filter_filter]
  apply List.filter_congr
  intro row _
  by_cases carries : key row = none
  · simp [matchesIn, carries]
  · simp [carries]

/-- Selecting the rows of listed keys keeps a listed key as it is. -/
theorem rowsAt_filter_matchesIn (value : κ) (wanted : List κ) (rows : List ρ) :
    rowsAt key (some value) (rows.filter (matchesIn key wanted)) =
      if value ∈ wanted then rowsAt key (some value) rows else [] := by
  by_cases listed : value ∈ wanted
  · rw [if_pos listed, rowsAt, List.filter_filter]
    apply List.filter_congr
    intro row _
    by_cases carries : key row = some value
    · simp [matchesIn, carries, listed]
    · simp [carries]
  · rw [if_neg listed, rowsAt_eq_nil_iff, List.mem_map]
    rintro ⟨row, member, carries⟩
    have selected := (List.mem_filter.mp member).2
    simp [matchesIn, carries, listed] at selected

theorem rowsAt_none_filter_matchesIn (wanted : List κ) (rows : List ρ) :
    rowsAt key none (rows.filter (matchesIn key wanted)) = [] := by
  rw [rowsAt_eq_nil_iff, List.mem_map]
  rintro ⟨row, member, carries⟩
  have selected := (List.mem_filter.mp member).2
  simp [matchesIn, carries] at selected

/-- Replacing rows by at most one row for each listed key keeps keys unique. -/
theorem UniqueKeys.overwrite {doomed : List κ} {rows fresh : List ρ}
    (unique : UniqueKeys key rows) (freshUnique : UniqueKeys key fresh)
    (covered : forall value : κ, value ∈ keys key fresh -> value ∈ doomed) :
    UniqueKeys key (overwrite key doomed rows fresh) := by
  refine uniqueKeys_iff.mpr (fun value => ?_)
  rw [rowsAt_overwrite_some]
  by_cases listed : value ∈ doomed
  · rw [if_pos listed, List.nil_append]
    exact uniqueKeys_iff.mp freshUnique value
  · have absent : rowsAt key (some value) fresh = [] := by
      by_contra present
      exact listed (covered value (mem_keys_iff_rowsAt.mpr present))
    rw [if_neg listed, absent, List.append_nil]
    exact uniqueKeys_iff.mp unique value

/-- Atomically delete the rows whose key is listed. -/
def delete (key : ρ -> Option κ) (doomed : List κ) (rows : List ρ) : List ρ :=
  rows.filter (fun row => !matchesIn key doomed row)

theorem delete_eq_overwrite (doomed : List κ) (rows : List ρ) :
    delete key doomed rows = KeyedRows.overwrite key doomed rows [] :=
  (List.append_nil _).symm

theorem rowsAt_delete_some (value : κ) (doomed : List κ) (rows : List ρ) :
    rowsAt key (some value) (delete key doomed rows) =
      if value ∈ doomed then [] else rowsAt key (some value) rows := by
  rw [delete_eq_overwrite, rowsAt_overwrite_some, rowsAt_nil, List.append_nil]

theorem rowsAt_delete_none (doomed : List κ) (rows : List ρ) :
    rowsAt key none (delete key doomed rows) = rowsAt key none rows := by
  rw [delete_eq_overwrite, rowsAt_overwrite_none, rowsAt_nil, List.append_nil]

/-- One pass over the rows that drops every row whose key column was seen
before.  A NULL counts as a value here, as it does in a Python set. -/
def keepFirst (key : ρ -> Option κ) : List (Option κ) -> List ρ -> List ρ
  | _, [] => []
  | seen, row :: rows =>
      if key row ∈ seen then keepFirst key seen rows
      else row :: keepFirst key (key row :: seen) rows

theorem keepFirst_sublist (seen : List (Option κ)) (rows : List ρ) :
    (keepFirst key seen rows).Sublist rows := by
  induction rows generalizing seen with
  | nil => exact List.Sublist.refl _
  | cons row rows ih =>
      rw [keepFirst]
      by_cases repeated : key row ∈ seen
      · rw [if_pos repeated]
        exact (ih seen).cons row
      · rw [if_neg repeated]
        exact (ih (key row :: seen)).cons_cons row

/-- At every key value not seen before, exactly the first row is kept. -/
theorem rowsAt_keepFirst (value : Option κ) (seen : List (Option κ)) (rows : List ρ) :
    rowsAt key value (keepFirst key seen rows) =
      if value ∈ seen then [] else (rowsAt key value rows).take 1 := by
  induction rows generalizing seen with
  | nil => simp [keepFirst]
  | cons row rows ih =>
      rw [keepFirst]
      by_cases repeated : key row ∈ seen
      · rw [if_pos repeated, ih]
        by_cases known : value ∈ seen
        · rw [if_pos known, if_pos known]
        · have different : key row ≠ value := fun same => known (same ▸ repeated)
          rw [if_neg known, if_neg known]
          simp [rowsAt, different]
      · rw [if_neg repeated]
        by_cases same : key row = value
        · have unknown : value ∉ seen := same ▸ repeated
          have stop := ih (key row :: seen)
          rw [if_pos (List.mem_cons.mpr (Or.inl same.symm))] at stop
          rw [if_neg unknown]
          simp only [rowsAt, List.filter_cons, same, decide_true, if_true] at stop ⊢
          rw [stop]
          rfl
        · have later := ih (key row :: seen)
          have listed : value ∈ key row :: seen ↔ value ∈ seen := by
            simp [List.mem_cons, Ne.symm same]
          simp only [listed] at later
          simp only [rowsAt, List.filter_cons, same, decide_false, Bool.false_eq_true,
            if_false] at later ⊢
          exact later

theorem keys_keepFirst {value : κ} {rows : List ρ} :
    value ∈ keys key (keepFirst key [] rows) ↔ value ∈ keys key rows := by
  rw [mem_keys_iff_rowsAt, mem_keys_iff_rowsAt, rowsAt_keepFirst]
  simp [List.take_eq_nil_iff]

theorem uniqueKeys_keepFirst (rows : List ρ) : UniqueKeys key (keepFirst key [] rows) := by
  refine uniqueKeys_iff.mpr (fun value => ?_)
  rw [rowsAt_keepFirst]
  simp [List.length_take]

/-- Append a row unless its key is there already.  A row that is there is not
replaced. -/
def insertNew (key : ρ -> Option κ) (rows : List ρ) (row : ρ) : List ρ :=
  if key row ∈ rows.map key then rows else rows ++ [row]

/-- Of the rows that are offered for a key, the first one is inserted. -/
theorem rowsAt_foldl_insertNew {value : Option κ} {rows : List ρ} (offered : List ρ)
    (atMost : (rowsAt key value rows).length ≤ 1) :
    rowsAt key value (offered.foldl (insertNew key) rows) = (rowsAt key value (rows ++ offered)).take 1 := by
  induction offered generalizing rows with
  | nil => rw [List.foldl_nil, List.append_nil, List.take_of_length_le atMost]
  | cons row offered ih =>
      rw [List.foldl_cons, insertNew]
      by_cases present : key row ∈ rows.map key
      · rw [if_pos present, ih atMost, rowsAt_append, rowsAt_append]
        by_cases own : key row = value
        · have some : rowsAt key value rows ≠ [] := by
            intro none
            rw [rowsAt_eq_nil_iff, ← own] at none
            exact none present
          have least : 1 ≤ (rowsAt key value rows).length := List.length_pos_iff.mpr some
          rw [List.take_append_of_le_length least, List.take_append_of_le_length least]
        · have skipped : rowsAt key value (row :: offered) = rowsAt key value offered :=
            List.filter_cons_of_neg (by simp [own])
          rw [skipped]
      · rw [if_neg present, ih, List.append_assoc]
        · rfl
        · rw [rowsAt_append, List.length_append]
          by_cases own : key row = value
          · have none : rowsAt key value rows = [] := by
              rw [rowsAt_eq_nil_iff, ← own]
              exact present
            rw [none, List.length_nil, Nat.zero_add]
            exact List.length_filter_le _ [row]
          · have skipped : rowsAt key value [row] = [] := List.filter_cons_of_neg (by simp [own])
            rw [skipped]
            exact atMost

/-- The same conversion, at one key. -/
theorem rowsAt_map {σ : Type w} {other : σ -> Option κ} (convert : ρ -> σ)
    (sameKey : forall row : ρ, other (convert row) = key row) (value : Option κ) (rows : List ρ) :
    rowsAt other value (rows.map convert) = (rowsAt key value rows).map convert := by
  rw [rowsAt, List.filter_map]
  exact congrArg (fun column => (rows.filter column).map convert)
    (funext (fun row => by simp [sameKey row]))

end KeyedRows
end WarehouseSync

import WarehouseSync.Extract.DataTypes
import Mathlib.Data.List.Forall2
import Mathlib.Tactic.Linarith

namespace WarehouseSync
namespace AlignTable

/-!
# Reshaping a staged table to the lake schema (`load/merge.py`)

A column is its name, its type and its cells; a cell holds a value, such as a
number, apart from the type it is stored in.  The casts are those of Arrow.  A
safe cast refuses a column when a value would change.  The fallback does not: it
brings every value into the type of the lake column, so a column comes through
unchanged exactly when its values were values of that type before.
-/

universe u v

variable {τ : Type u} {V : Type v}

/-- `Array.cast` with `safe=True` and with `safe=False`, from one type to another; a
cast that raises has no result.  Arrow does the casting, and what it does is a
parameter here. -/
structure Casts (τ : Type u) (V : Type v) where
  safe : τ -> τ -> List (Option V) -> Option (List (Option V))
  forced : τ -> τ -> List (Option V) -> Option (List (Option V))

/-- Two's complement of the given width. -/
def wrap (width : Nat) (number : Int) : Int :=
  Int.bmod number (2 ^ width)

/-- Which values a type can hold, and which types hold integers of how many bits.
The types themselves stay abstract, as the reshaping is the same for all of them. -/
structure Meaning (τ : Type u) (V : Type v) where
  holds : τ -> V -> Prop
  width : τ -> Option Nat
  integer : Int -> V

/-- What the casts of Arrow do: a safe cast changes no value or raises, a forced one
gives values of the target type and leaves those alone that fit already, and
integers are cut to the width. -/
structure Casts.Lawful (casts : Casts τ V) (meaning : Meaning τ V) : Prop where
  safe_same : forall {source target cells result},
    casts.safe source target cells = some result -> result = cells
  safe_typed : forall {source target cells result}, casts.safe source target cells = some result ->
    forall value, some value ∈ result -> meaning.holds target value
  forced_typed : forall {source target cells result}, casts.forced source target cells = some result ->
    forall value, some value ∈ result -> meaning.holds target value
  forced_length : forall {source target cells result}, casts.forced source target cells = some result ->
    result.length = cells.length
  forced_keeps : forall {source target cells result}, casts.forced source target cells = some result ->
    (forall value, some value ∈ cells -> meaning.holds target value) -> result = cells
  holds_integer : forall {target width number}, meaning.width target = some width ->
    (meaning.holds target (meaning.integer number) ↔ wrap width number = number)
  forced_integers : forall {source target first width} {numbers : List (Option Int)},
    meaning.width source = some first ->
    meaning.width target = some width ->
      casts.forced source target (numbers.map (Option.map meaning.integer)) =
        some (numbers.map (Option.map (fun number => meaning.integer (wrap width number))))

structure TableColumn (τ : Type u) (V : Type v) where
  name : String
  dataType : τ
  cells : List (Option V)
deriving DecidableEq

/-- A field of the Arrow schema of the lake table. -/
structure Field (τ : Type u) where
  name : String
  dataType : τ
deriving DecidableEq

/-- An Arrow table: its columns have one length and cells of their types.  Arrow
builds no other tables, so that both are fields and nothing has to be checked later.
-/
structure StagedTable (meaning : Meaning τ V) where
  columns : List (TableColumn τ V)
  numRows : Nat
  sameLength : forall column, column ∈ columns -> column.cells.length = numRows
  typed : forall column, column ∈ columns -> forall value, some value ∈ column.cells ->
    meaning.holds column.dataType value

variable {meaning : Meaning τ V}

/-- The columns of a name; `column` raises if there are several. -/
def StagedTable.named (staged : StagedTable meaning) (name : String) : List (TableColumn τ V) :=
  staged.columns.filter (fun column => column.name == name)

def StagedTable.find (staged : StagedTable meaning) (name : String) : Option (TableColumn τ V) :=
  (staged.named name).head?

/-- `col.cast(field.type)`, and the unsafe cast when that raises.  The fallback is
explicit in the code: a merge is to go on rather than to fail on one value. -/
def castColumn (casts : Casts τ V) (target : τ) (column : TableColumn τ V) :
    Option (List (Option V)) :=
  match casts.safe column.dataType target column.cells with
  | some cells => some cells
  | none => casts.forced column.dataType target column.cells

/-- The cells of one column of the result.  A name that occurs twice in the staged
table makes `column` raise. -/
def alignedCells [DecidableEq τ] (casts : Casts τ V) (staged : StagedTable meaning) (field : Field τ) :
    Option (List (Option V)) :=
  match staged.named field.name with
  | [] => some (List.replicate staged.numRows none)
  | [column] =>
      if column.dataType ≠ field.dataType then castColumn casts field.dataType column
      else some column.cells
  | _ => none

/-- `align_to_table`. -/
def alignToTable [DecidableEq τ] (casts : Casts τ V) (staged : StagedTable meaning)
    (target : List (Field τ)) : Option (List (TableColumn τ V)) :=
  target.mapM (fun field =>
    (alignedCells casts staged field).map (fun cells =>
      { name := field.name, dataType := field.dataType, cells := cells }))

/-- The keys that the merge lists in its overwrite filter. -/
def keysOf (cells : List (Option V)) : List V :=
  cells.filterMap (fun cell => cell)

/-- What becomes of a lake column: it is NULL when the staged table lacks it;
otherwise its cells, and the keys taken from it, are the staged ones exactly when
its type holds all of them, and integers are reduced to its width. -/
structure Aligned (staged : StagedTable meaning) (field : Field τ) (column : TableColumn τ V) :
    Prop where
  name : column.name = field.name
  dataType : column.dataType = field.dataType
  rows : column.cells.length = staged.numRows
  missing : staged.find field.name = none -> column.cells = List.replicate staged.numRows none
  same_iff : forall source, staged.find field.name = some source ->
    (column.cells = source.cells ↔
      forall value, some value ∈ source.cells -> meaning.holds field.dataType value)
  keys_iff : forall source, staged.find field.name = some source ->
    (keysOf column.cells = keysOf source.cells ↔
      forall value, some value ∈ source.cells -> meaning.holds field.dataType value)
  integers : forall source first width (numbers : List (Option Int)), staged.find field.name = some source ->
    meaning.width source.dataType = some first -> meaning.width field.dataType = some width ->
      source.cells = numbers.map (Option.map meaning.integer) ->
        column.cells = numbers.map (Option.map (fun number => meaning.integer (wrap width number)))

theorem mem_keysOf {cells : List (Option V)} {value : V} : value ∈ keysOf cells ↔ some value ∈ cells := by
  simp [keysOf]

section Column

variable {casts : Casts τ V}

/-- A cast brings every value into the target type. -/
theorem typed_castColumn (laws : casts.Lawful meaning) {target : τ} {column : TableColumn τ V}
    {cells : List (Option V)} (cast : castColumn casts target column = some cells) (value : V)
    (member : some value ∈ cells) : meaning.holds target value := by
  unfold castColumn at cast
  split at cast
  · rename_i kept safe
    rw [← Option.some.inj cast] at member
    exact laws.safe_typed safe value member
  · exact laws.forced_typed cast value member

theorem length_castColumn (laws : casts.Lawful meaning) {target : τ} {column : TableColumn τ V}
    {cells : List (Option V)} (cast : castColumn casts target column = some cells) :
    cells.length = column.cells.length := by
  unfold castColumn at cast
  split at cast
  · rename_i kept safe
    rw [← Option.some.inj cast, laws.safe_same safe]
  · exact laws.forced_length cast

/-- Values of the target type stay as they are. -/
theorem castColumn_keeps (laws : casts.Lawful meaning) {target : τ} {column : TableColumn τ V}
    {cells : List (Option V)} (cast : castColumn casts target column = some cells)
    (held : forall value, some value ∈ column.cells -> meaning.holds target value) :
    cells = column.cells := by
  unfold castColumn at cast
  split at cast
  · rename_i kept safe
    rw [← Option.some.inj cast]
    exact laws.safe_same safe
  · exact laws.forced_keeps cast held

/-- Integers keep their value modulo two to the width of the target. -/
theorem castColumn_integers (laws : casts.Lawful meaning) {target : τ} {column : TableColumn τ V}
    {cells : List (Option V)} {first width : Nat} {numbers : List (Option Int)}
    (cast : castColumn casts target column = some cells) (source : meaning.width column.dataType = some first)
    (bits : meaning.width target = some width)
    (written : column.cells = numbers.map (Option.map meaning.integer)) :
    cells = numbers.map (Option.map (fun number => meaning.integer (wrap width number))) := by
  have held := typed_castColumn laws cast
  unfold castColumn at cast
  split at cast
  · rename_i kept safe
    have same : cells = numbers.map (Option.map meaning.integer) := by
      rw [← Option.some.inj cast, laws.safe_same safe, written]
    rw [same] at held ⊢
    apply List.map_congr_left
    intro number member
    cases number with
    | none => rfl
    | some number =>
        have fits := held (meaning.integer number) (List.mem_map.mpr ⟨some number, member, rfl⟩)
        rw [Option.map_some, Option.map_some, (laws.holds_integer bits).mp fits]
  · rw [written, laws.forced_integers source bits] at cast
    exact (Option.some.inj cast).symm

/-- How the cells of a staged column come out as cells of a type.  This is what is
known of one cast column, whichever of the two casts it was. -/
structure Carried (meaning : Meaning τ V) (target : τ) (column : TableColumn τ V)
    (cells : List (Option V)) : Prop where
  length : cells.length = column.cells.length
  typed : forall value, some value ∈ cells -> meaning.holds target value
  keeps : (forall value, some value ∈ column.cells -> meaning.holds target value) -> cells = column.cells
  integers : forall first width (numbers : List (Option Int)),
    meaning.width column.dataType = some first -> meaning.width target = some width ->
      column.cells = numbers.map (Option.map meaning.integer) ->
        cells = numbers.map (Option.map (fun number => meaning.integer (wrap width number)))

theorem carried_castColumn (laws : casts.Lawful meaning) {target : τ} {column : TableColumn τ V}
    {cells : List (Option V)} (cast : castColumn casts target column = some cells) :
    Carried meaning target column cells :=
  { length := length_castColumn laws cast
    typed := typed_castColumn laws cast
    keeps := castColumn_keeps laws cast
    integers := by
      intro first width numbers source bits written
      exact castColumn_integers laws cast source bits written }

/-- A column of the lake's own type is taken as it is, which no cast could do
better. -/
theorem carried_self (laws : casts.Lawful meaning) {column : TableColumn τ V}
    (typed : forall value, some value ∈ column.cells -> meaning.holds column.dataType value) :
    Carried meaning column.dataType column column.cells :=
  { length := rfl
    typed := typed
    keeps := fun _ => rfl
    integers := by
      intro first width numbers _ bits written
      rw [written]
      apply List.map_congr_left
      intro number listed
      cases number with
      | none => rfl
      | some number =>
          have held := typed (meaning.integer number)
            (written ▸ List.mem_map.mpr ⟨some number, listed, rfl⟩)
          rw [Option.map_some, Option.map_some, (laws.holds_integer bits).mp held] }

theorem aligned_missing {staged : StagedTable meaning} {field : Field τ} (absent : staged.find field.name = none) :
    Aligned staged field { name := field.name, dataType := field.dataType,
                           cells := List.replicate staged.numRows none } := by
  have nowhere : forall source, staged.find field.name ≠ some source := by
    intro source impossible
    rw [absent] at impossible
    cases impossible
  exact {
    name := rfl
    dataType := rfl
    rows := List.length_replicate
    missing := fun _ => rfl
    same_iff := fun source found => absurd found (nowhere source)
    keys_iff := fun source found => absurd found (nowhere source)
    integers := fun source _ _ _ found => absurd found (nowhere source) }

theorem aligned_carried {staged : StagedTable meaning} {field : Field τ} {column : TableColumn τ V}
    {cells : List (Option V)} (found : staged.find field.name = some column)
    (member : column ∈ staged.columns) (carried : Carried meaning field.dataType column cells) :
    Aligned staged field { name := field.name, dataType := field.dataType, cells := cells } := by
  have only : forall source, staged.find field.name = some source -> source = column := by
    intro source same
    rw [found] at same
    exact (Option.some.inj same).symm
  exact {
    name := rfl
    dataType := rfl
    rows := carried.length.trans (staged.sameLength column member)
    missing := by
      intro impossible
      rw [found] at impossible
      cases impossible
    same_iff := by
      intro source same
      rw [only source same]
      constructor
      · intro equal value listed
        rw [← equal] at listed
        exact carried.typed value listed
      · exact carried.keeps
    keys_iff := by
      intro source same
      rw [only source same]
      constructor
      · intro equal value listed
        have key : value ∈ keysOf column.cells := mem_keysOf.mpr listed
        rw [← equal] at key
        exact carried.typed value (mem_keysOf.mp key)
      · intro held
        rw [carried.keeps held]
    integers := by
      intro source first width numbers same
      rw [only source same]
      exact carried.integers first width numbers }

variable [DecidableEq τ]

theorem carried_of_cells (laws : casts.Lawful meaning) {staged : StagedTable meaning} {field : Field τ}
    {column : TableColumn τ V} {cells : List (Option V)} (named : staged.named field.name = [column])
    (built : alignedCells casts staged field = some cells) :
    column ∈ staged.columns ∧ Carried meaning field.dataType column cells := by
  have member : column ∈ staged.columns := by
    apply List.mem_of_mem_filter
    rw [← StagedTable.named, named]
    exact List.mem_singleton_self column
  refine ⟨member, ?_⟩
  simp only [alignedCells, named] at built
  by_cases other : column.dataType ≠ field.dataType
  · rw [if_pos other] at built
    exact carried_castColumn laws built
  · rw [if_neg other] at built
    rw [ne_eq, not_not] at other
    rw [← Option.some.inj built, ← other]
    exact carried_self laws (staged.typed column member)

/-- One column of the result. -/
theorem aligned_of_cells (laws : casts.Lawful meaning) {staged : StagedTable meaning} {field : Field τ}
    {cells : List (Option V)} (built : alignedCells casts staged field = some cells) :
    Aligned staged field { name := field.name, dataType := field.dataType, cells := cells } := by
  cases named : staged.named field.name with
  | nil =>
      simp only [alignedCells, named] at built
      rw [← Option.some.inj built]
      apply aligned_missing
      rw [StagedTable.find, named]
      rfl
  | cons column others =>
      cases others with
      | nil =>
          rcases carried_of_cells laws named built with ⟨member, carried⟩
          apply aligned_carried _ member carried
          rw [StagedTable.find, named]
          rfl
      | cons second others =>
          simp only [alignedCells, named] at built
          cases built

end Column

/-! ## The whole table -/

/-- Aligning raises or returns the lake's columns in order, each of them as
described.  The order and the types are those of the lake, so that a merge never
changes the schema. -/
theorem alignToTable_aligned [DecidableEq τ] {casts : Casts τ V} (laws : casts.Lawful meaning)
    (staged : StagedTable meaning) (target : List (Field τ)) :
    forall table, alignToTable casts staged target = some table ->
      List.Forall₂ (Aligned staged) target table := by
  unfold alignToTable
  induction target with
  | nil =>
      intro table built
      rw [List.mapM_nil] at built
      cases built
      exact List.Forall₂.nil
  | cons field target ih =>
      intro table built
      rw [List.mapM_cons] at built
      rcases Option.bind_eq_some_iff.mp built with ⟨column, first, rest⟩
      rcases Option.bind_eq_some_iff.mp rest with ⟨columns, others, same⟩
      rcases Option.map_eq_some_iff.mp first with ⟨cells, one, rfl⟩
      rw [← Option.some.inj same]
      exact List.Forall₂.cons (aligned_of_cells laws one) (ih columns others)

open DataTypes

def integerWidth : DataType -> Option Nat
  | .int16 => some 16
  | .int32 => some 32
  | .int64 => some 64
  | _ => none

/-- Integers in the integer types. -/
def integerMeaning : Meaning DataType Int :=
  { holds := fun target number => forall width, integerWidth target = some width -> wrap width number = number
    width := integerWidth
    integer := fun number => number }

/-- The casts between integer types. -/
def integerCasts : Casts DataType Int :=
  { safe := fun _ target cells =>
      (integerWidth target).bind (fun width =>
        if cells.all (fun cell => cell.all (fun number => wrap width number == number)) = true then some cells
        else none)
    forced := fun _ target cells =>
      (integerWidth target).map (fun width => cells.map (Option.map (wrap width))) }

theorem integerCasts_lawful : integerCasts.Lawful integerMeaning :=
  { safe_same := by
      intro source target cells result safe
      rcases Option.bind_eq_some_iff.mp safe with ⟨width, _, kept⟩
      split at kept
      · exact (Option.some.inj kept).symm
      · cases kept
    safe_typed := by
      intro source target cells result safe number member width bits
      rcases Option.bind_eq_some_iff.mp safe with ⟨first, same, kept⟩
      rw [bits] at same
      rw [← Option.some.inj same] at kept
      split at kept
      · rename_i fits
        rw [← Option.some.inj kept] at member
        exact of_decide_eq_true (List.all_eq_true.mp fits (some number) member)
      · cases kept
    forced_typed := by
      intro source target cells result forced number member width bits
      rcases Option.map_eq_some_iff.mp forced with ⟨first, same, rfl⟩
      rw [bits] at same
      rw [← Option.some.inj same] at member
      rcases List.mem_map.mp member with ⟨cell, _, wrapped⟩
      rcases Option.map_eq_some_iff.mp wrapped with ⟨before, _, rfl⟩
      exact Int.bmod_bmod
    forced_length := by
      intro source target cells result forced
      rcases Option.map_eq_some_iff.mp forced with ⟨width, _, rfl⟩
      exact List.length_map _
    forced_keeps := by
      intro source target cells result forced held
      rcases Option.map_eq_some_iff.mp forced with ⟨width, bits, rfl⟩
      apply (List.map_congr_left ?_).trans (List.map_id cells)
      intro cell member
      cases cell with
      | none => rfl
      | some number => exact congrArg some (held number member width bits)
    holds_integer := by
      intro target width number bits
      constructor
      · intro held
        exact held width bits
      · intro fits other same
        rw [Option.some.inj (same.symm.trans bits)]
        exact fits
    forced_integers := by
      intro source target first width numbers _ bits
      show (integerWidth target).map _ = _
      have same : integerWidth target = some width := bits
      rw [same, Option.map_some, List.map_map]
      apply congrArg some
      apply List.map_congr_left
      intro number _
      cases number with
      | none => rfl
      | some number => rfl }

/-- A staged table of one `bigint` id beyond the range of an `integer`. -/
def wideIds : StagedTable integerMeaning :=
  { columns := [{ name := "id", dataType := .int64, cells := [some 4294967297] }]
    numRows := 1
    sameLength := by
      intro column member
      rw [List.mem_singleton.mp member]
      rfl
    typed := by
      intro column member number listed width bits
      rw [List.mem_singleton.mp member] at listed bits
      cases bits
      cases List.mem_singleton.mp listed
      decide }

/-- Aligned to a lake whose `id` is an `integer` and which still has a `note`. -/
theorem wide_ids_aligned :
    List.Forall₂ (Aligned wideIds)
      [{ name := "id", dataType := DataType.int32 }, { name := "note", dataType := .int64 }]
      [{ name := "id", dataType := .int32, cells := [some 1] },
        { name := "note", dataType := .int64, cells := [none] }] :=
  alignToTable_aligned integerCasts_lawful wideIds
    [{ name := "id", dataType := .int32 }, { name := "note", dataType := .int64 }] _ (by decide)

/-- The wide id comes out as the id of another row. -/
theorem wide_id_becomes_another :
    alignToTable integerCasts wideIds [{ name := "id", dataType := .int32 }] =
      some [{ name := "id", dataType := .int32, cells := [some 1] }] ∧
    keysOf [some (1 : Int)] = [1] ∧
    Exists fun staged : TableColumn DataType Int =>
      wideIds.find "id" = some staged ∧ staged.cells ≠ [some 1] ∧ keysOf staged.cells ≠ [1] := by
  refine ⟨by decide, rfl, _, rfl, by decide, by decide⟩

end AlignTable
end WarehouseSync

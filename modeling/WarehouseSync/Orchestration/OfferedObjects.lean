import WarehouseSync.Extract.RunIncremental
import WarehouseSync.Orchestration.Tables

namespace WarehouseSync
namespace OfferedObjects

open Incremental IsoFormat RunIncremental Schema Tables Watermarks

/-!
# Objects offered for incremental sync

Discovery offers every object that has columns named `id` and `updated_at`.  The
stored watermark keeps the id as a BIGINT, and the window compares the id column
with it, so the type of that column decides whether PostgreSQL accepts the
statement.  PostgreSQL has times that Python has not, infinite ones and those
beyond the year 9999, and a row that holds one ends the run when it is loaded.
Rows of a view may carry a NULL id; whether the running maximum can compare them,
and end on an id that the store takes, depends on the other rows with the same
watermark value.
-/

universe u

/-- The types of `id` that are told apart.  An offered object may have any of them,
since discovery only looks for the column by its name. -/
inductive IdType where
  | integer
  | uuid
  | text
deriving DecidableEq, Repr

/-- What psycopg loads from a column of the type. -/
abbrev IdType.Value : IdType -> Type
  | .integer => Int
  | .uuid => BitVec 128
  | .text => String

/-- The types by the names that `format_type` gives them. -/
def idTypeOf (pgType : String) : Option IdType :=
  if ["smallint", "integer", "bigint"].contains (lower pgType) then some .integer
  else if lower pgType = "uuid" then some .uuid
  else if lower pgType = "text" || startsWith (lower pgType) "character" then some .text
  else none

/-- Whether PostgreSQL has a comparison of the type with the literal of a BIGINT.
Without one the query is rejected when it is analysed, so an empty table does not
help. -/
def IdType.comparesWithBigint : IdType -> Bool
  | .integer => true
  | .uuid => false
  | .text => false

def IdType.toInt : (type : IdType) -> type.Value -> Option Int
  | .integer, value => some value
  | .uuid, _ => none
  | .text, _ => none

/-- Python has a value of the kind at this distance from the default.  Every integer
is one, while a time has to lie in the years that `datetime` has. -/
def Representable (kind : WatermarkKind) (value : Int) : Prop :=
  Exists fun python : kind.Value => kind.rank python - kind.rank (defaultValue kind) = value

/-- An object with what the run reads of it.  A row loads when psycopg makes Python
values of all of its columns, which it cannot do of every time PostgreSQL stores; of
the columns beside the two that are compared nothing else matters. -/
structure OfferedObject (ρ : Type u) where
  object : DiscoveredObject
  idType : IdType
  watermark : ρ -> Option Int
  id : ρ -> Option idType.Value
  loads : ρ -> Bool
  rows : List ρ
  offered : object.supportsIncremental = true
  declared : forall column, object.find "id" = some column -> idTypeOf column.pgType = some idType
  loaded : forall row, row ∈ rows -> loads row = true ->
    forall kind, kindOfColumn object.columns "updated_at" = some kind ->
      forall value, watermark row = some value -> Representable kind value

/-- How a run ends; all but the first and the last are exceptions.  They are kept
apart here because the condition has to exclude each of them for a reason of its
own. -/
inductive Outcome (ρ : Type u) where
  | unsupported
  | unreadable
  | overflow
  | rejected
  | unloadable
  | incomparable
  | extracted (kind : WatermarkKind) (extraction : RunIncremental.Extraction ρ)

/-- Whether the arithmetic of the run stays within the years Python has.  The lower
bound of a time is subtracted on its own wall clock, the upper one comes from the
clock of the run, and with a window the stored time is also written in UTC. -/
def boundsFit (settings : IncrementalSettings) (now : Int) : (kind : WatermarkKind) -> Watermark kind -> Bool
  | .timestampTz, wm =>
      let stored : AwareDateTime := wm.value
      DateTime.fits (stored.wall.micros - settings.overlap) &&
        DateTime.fits (epochNaive.micros + (now - settings.gap)) &&
        ((windowFor settings now (markOf wm) .timestampTz).isNone || DateTime.fits stored.instant)
  | .timestampNaive, wm =>
      let stored : DateTime := wm.value
      DateTime.fits (stored.micros - settings.overlap)
  | .date, wm =>
      let stored : Date := wm.value
      Date.fits (stored.toordinal - settings.overlapDays) &&
        DateTime.fits (epochNaive.micros + (now - settings.gap))
  | .integer, _ => true

variable {ρ : Type u}

/-- The columns as the comparisons read them, once the id is known to be an integer.
Ids of other types are left out, and no row of theirs is compared. -/
def OfferedObject.accessors (source : OfferedObject ρ) : NullableColumns ρ :=
  { watermark := source.watermark, id := fun row => (source.id row).bind source.idType.toInt }

/-- `run_incremental`: without a window no SQL is sent, and with one the COPY
statement compares the id column with the stored `last_id`.  A row that does not load
ends the run wherever it stands among the rows of the window, and nothing of the run
remains then, so all rows are loaded here before the first one is compared. -/
def OfferedObject.runIncremental (source : OfferedObject ρ) (settings : IncrementalSettings) (now : Int)
    (stored : Option Row) : Outcome ρ :=
  match kindOfColumn source.object.columns "updated_at" with
  | none => .unsupported
  | some kind =>
      match getWatermark kind stored with
      | none => .unreadable
      | some wm =>
          if boundsFit settings now kind wm = false then .overflow
          else
            match windowFor settings now (markOf wm) kind with
            | some window =>
                if source.idType.comparesWithBigint = false then .rejected
                else if (source.rows.filter (source.accessors.selects window wm.lastId)).all source.loads = false then
                  .unloadable
                else
                  match extract source.accessors settings kind now (markOf wm) source.rows with
                  | none => .incomparable
                  | some extraction => .extracted kind extraction
            | none => .extracted kind { staged := none, watermark := reachedOf (markOf wm) }

/-- All that ends a run early is an exception to its caller. -/
def Outcome.result : Outcome ρ -> Result ρ
  | .unsupported => .unsupported
  | .unreadable => .raised
  | .overflow => .raised
  | .rejected => .raised
  | .unloadable => .raised
  | .incomparable => .raised
  | .extracted kind extraction => .extracted kind extraction

/-- The object with its id column read as an integer. -/
def OfferedObject.source (source : OfferedObject ρ) : Source ρ :=
  { columns := source.object.columns, accessors := source.accessors, rows := source.rows }

/-- With an integer id, and no time that Python has not, this is the run on the
columns of any table. -/
theorem result_runIncremental (source : OfferedObject ρ) (integer : source.idType = .integer)
    (settings : IncrementalSettings) (now : Int) (stored : Option Row)
    (fits : forall kind, kindOfColumn source.object.columns "updated_at" = some kind ->
      forall wm, getWatermark kind stored = some wm -> boundsFit settings now kind wm = true)
    (loads : forall row, row ∈ source.rows -> source.loads row = true) :
    (source.runIncremental settings now stored).result =
      RunIncremental.runIncremental source.source "updated_at" "id" settings now stored := by
  have named : "id" ∈ source.object.columns.map (fun column => column.name) := by
    have offered := (Bool.and_eq_true_iff.mp source.offered).1
    rcases Option.isSome_iff_exists.mp offered with ⟨column, found⟩
    have same : column.name = "id" := by simpa using List.find?_some found
    exact List.mem_map.mpr ⟨column, List.mem_of_find?_eq_some found, same⟩
  have typed : source.idType.comparesWithBigint = true := by
    rw [integer]
    rfl
  have loadable (window : Window) (lastId : Int) :
      (source.rows.filter (source.accessors.selects window lastId)).all source.loads = true :=
    List.all_eq_true.mpr (fun row member => loads row (List.mem_filter.mp member).1)
  unfold OfferedObject.runIncremental RunIncremental.runIncremental OfferedObject.source
  cases supported : kindOfColumn source.object.columns "updated_at" with
  | none => rfl
  | some kind =>
      cases readable : getWatermark kind stored with
      | none =>
          simp only [readable]
          rfl
      | some wm =>
          simp only [readable, fits kind supported wm readable, typed, loadable, named,
            not_true_eq_false, and_false, Bool.true_eq_false,
            if_false]
          cases planned : windowFor settings now (markOf wm) kind with
          | none =>
              simp only [extract, planned]
              rfl
          | some window =>
              simp only
              cases extract source.accessors settings kind now (markOf wm) source.rows with
              | none => rfl
              | some extraction => rfl

/-- The store takes the watermark: it is a value of Python with an integer id,
`set_watermark` does not raise, and what is read afterwards is the watermark, unless
the row held one at least as late. -/
def Storable (kind : WatermarkKind) (stored : Option Row) (reached : Reached) : Prop :=
  Exists fun wm : Watermark kind => reached.mark = some (markOf wm) ∧
    Exists fun row : Row => setWatermark kind wm stored = some row ∧
      (getWatermark kind (some row) = some wm ∨
        (stored = some row ∧ Exists fun held : Watermark kind =>
          current kind row = some held ∧ wm.rank ≤ held.rank))

/-- The predicate is accepted, the comparisons succeed and the watermark can be
stored.  It asks that the run comes to its end, so an object that always fails
cannot be synced, whatever its rows are. -/
def CanBeSynced (source : OfferedObject ρ) (settings : IncrementalSettings) (now : Int)
    (stored : Option Row) : Prop :=
  Exists fun kind : WatermarkKind => Exists fun extraction : RunIncremental.Extraction ρ =>
    source.runIncremental settings now stored = .extracted kind extraction ∧
      Storable kind stored extraction.watermark

theorem nullsLast_trans {first second third : Option Int} (left : nullsLast first second)
    (right : nullsLast second third) : nullsLast first third := by
  cases third with
  | none => trivial
  | some last =>
      cases second with
      | none => exact False.elim right
      | some middle =>
          cases first with
          | none => exact False.elim left
          | some early => exact le_trans (show early ≤ middle from left) right

theorem nullsLast_total (first second : Option Int) : nullsLast first second ∨ nullsLast second first := by
  cases first with
  | none => exact Or.inr trivial
  | some early =>
      cases second with
      | none => exact Or.inl trivial
      | some late => exact le_total early late

/-! ## Ids that the running maximum can compare -/

/-- Rows with one watermark value carry ids or carry none.  None is without an
id at the stored value, where there is an id to compare with, and at the
greatest value, whose id is stored. -/
structure IdsSettle (columns : NullableColumns ρ) (best : Mark) (selected : List ρ) : Prop where
  stored : forall row, row ∈ selected -> columns.watermark row = some best.value -> columns.id row ≠ none
  alike : forall row, row ∈ selected -> forall other, other ∈ selected ->
    columns.watermark row = columns.watermark other ->
      forall value, columns.watermark row = some value -> best.value < value ->
        columns.id row = none -> columns.id other = none
  greatest : forall row, row ∈ selected ->
    forall value, columns.watermark row = some value -> best.value < value ->
      (forall other, other ∈ selected -> forall lower, columns.watermark other = some lower -> lower ≤ value) ->
        columns.id row ≠ none

/-- What the comparisons of the remaining rows with the running maximum need.  It is
the condition on the ids in the middle of the loop, with the maximum so far in place
of the stored watermark. -/
structure Comparable (columns : NullableColumns ρ) (best : Reached) (selected : List ρ) : Prop where
  here : forall row, row ∈ selected -> columns.watermark row = some best.value ->
    (columns.id row = none ↔ best.lastId = none)
  alike : forall row, row ∈ selected -> forall other, other ∈ selected ->
    columns.watermark row = columns.watermark other ->
      forall value, columns.watermark row = some value -> best.value < value ->
        columns.id row = none -> columns.id other = none

variable {columns : NullableColumns ρ}

/-- The rows come in the order of their watermark values, which the query asks for.
Rows of one value may come in any order of their ids as far as this goes. -/
def Ascending (columns : NullableColumns ρ) (selected : List ρ) : Prop :=
  selected.Pairwise (fun first second => forall early late,
    columns.watermark first = some early -> columns.watermark second = some late -> early ≤ late)

theorem ascending_rows (window : Window) (lastId : Int) (rows : List ρ) :
    Ascending columns (columns.rows window lastId rows) := by
  have transitive : IsTrans ρ columns.inOrder := by
    refine ⟨fun first second third left right => ?_⟩
    unfold NullableColumns.inOrder at left right ⊢
    rcases left with less | ⟨same, ids⟩
    · rcases right with lessToo | ⟨sameToo, _⟩
      · exact Or.inl (lt_trans less lessToo)
      · exact Or.inl (sameToo ▸ less)
    · rcases right with less | ⟨sameToo, idsToo⟩
      · exact Or.inl (same ▸ less)
      · exact Or.inr ⟨same.trans sameToo, nullsLast_trans ids idsToo⟩
  have total : Std.Total columns.inOrder := by
    refine ⟨fun first second => ?_⟩
    unfold NullableColumns.inOrder
    rcases lt_trichotomy ((columns.watermark first).getD 0) ((columns.watermark second).getD 0) with
      less | same | more
    · exact Or.inl (Or.inl less)
    · rcases nullsLast_total (columns.id first) (columns.id second) with ids | ids
      · exact Or.inl (Or.inr ⟨same, ids⟩)
      · exact Or.inr (Or.inr ⟨same.symm, ids⟩)
    · exact Or.inr (Or.inl more)
  apply (List.pairwise_insertionSort columns.inOrder _).imp
  intro first second ordered early late earlyValue lateValue
  unfold NullableColumns.inOrder at ordered
  rw [earlyValue, lateValue] at ordered
  rcases ordered with less | ⟨same, _⟩
  · exact le_of_lt less
  · exact le_of_eq same

section Raise

variable {best : Reached} {row : ρ} {value : Int}

theorem raise_below (carries : columns.watermark row = some value) (below : value < best.value) :
    columns.raise best row = some best := by
  unfold NullableColumns.raise
  simp only [carries]
  rw [if_neg (ne_of_lt below), if_neg (not_lt.mpr (le_of_lt below))]

theorem raise_above (carries : columns.watermark row = some value) (above : best.value < value) :
    columns.raise best row = some { value := value, lastId := columns.id row } := by
  unfold NullableColumns.raise
  simp only [carries]
  rw [if_neg (ne_of_gt above), if_pos above]

/-- At the value of the maximum the ids are compared: both are there, or none. -/
theorem raise_level (carries : columns.watermark row = some best.value) :
    ((columns.raise best row).isSome = true ↔ (columns.id row = none ↔ best.lastId = none)) ∧
      forall after, columns.raise best row = some after ->
        after.value = best.value ∧ (after.lastId = none ↔ best.lastId = none) := by
  unfold NullableColumns.raise
  simp only [carries]
  rw [if_pos True.intro]
  cases columns.id row with
  | none =>
      cases held : best.lastId with
      | none =>
          refine ⟨by simp, fun after raised => ?_⟩
          cases raised
          exact ⟨rfl, by rw [held]⟩
      | some lastId => exact ⟨by simp, fun after raised => by cases raised⟩
  | some id =>
      cases held : best.lastId with
      | none => exact ⟨by simp, fun after raised => by cases raised⟩
      | some lastId =>
          refine ⟨by simp, fun after raised => ?_⟩
          by_cases later : lastId < id
          · simp only [if_pos later, Option.some.injEq] at raised
            subst raised
            exact ⟨rfl, by simp⟩
          · simp only [if_neg later, Option.some.injEq] at raised
            subst raised
            exact ⟨rfl, by simp [held]⟩

end Raise

/-- The rows of a window have watermark values, because a NULL satisfies neither of
its bounds. -/
def Valued (columns : NullableColumns ρ) (selected : List ρ) : Prop :=
  forall row, row ∈ selected -> Exists fun value : Int => columns.watermark row = some value

/-- A row with another value than the first is one of the rest. -/
theorem mem_rest {row entry : ρ} {rest : List ρ} {value other : Int}
    (carries : columns.watermark row = some value) (differ : value ≠ other) (member : entry ∈ row :: rest)
    (valued : columns.watermark entry = some other) : entry ∈ rest := by
  rcases List.mem_cons.mp member with rfl | later
  · exact absurd (Option.some.inj (carries.symm.trans valued)) differ
  · exact later

/-- A row below the maximum plays no role. -/
theorem comparable_cons_below {best : Reached} {row : ρ} {rest : List ρ} {value : Int}
    (carries : columns.watermark row = some value) (below : value < best.value) :
    Comparable columns best (row :: rest) ↔ Comparable columns best rest := by
  constructor
  · intro compares
    exact ⟨fun other member => compares.here other (List.mem_cons_of_mem row member),
      fun left leftMember right rightMember =>
        compares.alike left (List.mem_cons_of_mem row leftMember) right (List.mem_cons_of_mem row rightMember)⟩
  · intro compares
    refine ⟨fun other member same => ?_, fun left leftMember right rightMember same other valued above => ?_⟩
    · rcases List.mem_cons.mp member with rfl | later
      · exact absurd (Option.some.inj (carries.symm.trans same)) (ne_of_lt below)
      · exact compares.here other later same
    · have differ := ne_of_lt (lt_trans below above)
      exact compares.alike left (mem_rest carries differ leftMember valued) right
        (mem_rest carries differ rightMember (same.symm.trans valued)) same other valued above

/-- A row at the maximum passes its comparison on to a maximum of the same kind. -/
theorem comparable_cons_level {best after : Reached} {row : ρ} {rest : List ρ}
    (carries : columns.watermark row = some best.value) (value : after.value = best.value)
    (ids : after.lastId = none ↔ best.lastId = none) :
    Comparable columns best (row :: rest) ↔
      (columns.id row = none ↔ best.lastId = none) ∧ Comparable columns after rest := by
  constructor
  · intro compares
    refine ⟨compares.here row List.mem_cons_self carries, ?_, ?_⟩
    · intro other member same
      rw [ids]
      exact compares.here other (List.mem_cons_of_mem row member) (value ▸ same)
    · intro left leftMember right rightMember same other valued above
      exact compares.alike left (List.mem_cons_of_mem row leftMember) right
        (List.mem_cons_of_mem row rightMember) same other valued (value ▸ above)
  · rintro ⟨first, compares⟩
    refine ⟨fun other member same => ?_, fun left leftMember right rightMember same other valued above => ?_⟩
    · rcases List.mem_cons.mp member with rfl | later
      · exact first
      · rw [← ids]
        exact compares.here other later (value ▸ same)
    · have differ := ne_of_lt above
      exact compares.alike left (mem_rest carries differ leftMember valued) right
        (mem_rest carries differ rightMember (same.symm.trans valued)) same other valued (value.symm ▸ above)

/-- A row above the maximum starts the group of its value. -/
theorem comparable_cons_above {best : Reached} {row : ρ} {rest : List ρ} {value : Int}
    (carries : columns.watermark row = some value) (above : best.value < value)
    (ascending : Ascending columns (row :: rest)) :
    Comparable columns best (row :: rest) ↔
      Comparable columns { value := value, lastId := columns.id row } rest := by
  have atLeast : forall other, other ∈ rest -> forall later, columns.watermark other = some later ->
      value ≤ later := by
    intro other member later valued
    exact (List.pairwise_cons.mp ascending).1 other member value later carries valued
  constructor
  · intro compares
    refine ⟨fun other member same => ?_, fun left leftMember right rightMember same other valued beyond => ?_⟩
    · have inWhole := List.mem_cons_of_mem row member
      constructor
      · exact compares.alike other inWhole row List.mem_cons_self (same.trans carries.symm) value same above
      · exact compares.alike row List.mem_cons_self other inWhole (carries.trans same.symm) value carries above
    · exact compares.alike left (List.mem_cons_of_mem row leftMember) right
        (List.mem_cons_of_mem row rightMember) same other valued (lt_trans above beyond)
  · intro compares
    have group : forall other, other ∈ row :: rest -> columns.watermark other = some value ->
        (columns.id other = none ↔ columns.id row = none) := by
      intro other member same
      rcases List.mem_cons.mp member with rfl | later
      · exact Iff.rfl
      · exact compares.here other later same
    refine ⟨fun other member same => ?_, fun left leftMember right rightMember same other valued beyond => ?_⟩
    · rcases List.mem_cons.mp member with rfl | later
      · exact absurd (Option.some.inj (carries.symm.trans same)) (ne_of_gt above)
      · exact absurd (atLeast other later _ same) (not_le.mpr above)
    · by_cases level : other = value
      · subst level
        rw [group left leftMember valued, group right rightMember (same.symm.trans valued)]
        exact id
      · have inRest := mem_rest carries (Ne.symm level) leftMember valued
        have higher : value < other := lt_of_le_of_ne (atLeast left inRest other valued) (Ne.symm level)
        exact compares.alike left inRest right
          (mem_rest carries (Ne.symm level) rightMember (same.symm.trans valued)) same other valued higher

/-- The running maximum over the rows of a window raises no `TypeError` exactly
when the ids can be compared. -/
theorem isSome_foldlM_raise_iff {selected : List ρ} (valued : Valued columns selected)
    (ascending : Ascending columns selected) (best : Reached) :
    (selected.foldlM columns.raise best).isSome = true ↔ Comparable columns best selected := by
  induction selected generalizing best with
  | nil =>
      constructor
      · intro _
        exact ⟨fun row member => absurd member List.not_mem_nil,
          fun row member => absurd member List.not_mem_nil⟩
      · intro _
        rfl
  | cons row rest ih =>
      have restValued : Valued columns rest := fun other member =>
        valued other (List.mem_cons_of_mem row member)
      have restAscending : Ascending columns rest := (List.pairwise_cons.mp ascending).2
      rcases valued row List.mem_cons_self with ⟨value, carries⟩
      rw [List.foldlM_cons]
      rcases lt_trichotomy value best.value with below | level | above
      · rw [raise_below carries below, comparable_cons_below carries below]
        exact ih restValued restAscending best
      · rw [level] at carries
        rcases raise_level carries with ⟨succeeds, keeps⟩
        cases raised : columns.raise best row with
        | none =>
            rw [raised] at succeeds
            constructor
            · intro held
              cases held
            · intro compares
              exact absurd (succeeds.mpr (compares.here row List.mem_cons_self carries)) (by simp)
        | some after =>
            rw [raised] at succeeds
            rcases keeps after raised with ⟨same, ids⟩
            rw [comparable_cons_level carries same ids, ← succeeds]
            exact (ih restValued restAscending after).trans (by simp)
      · rw [raise_above carries above, comparable_cons_above carries above ascending]
        exact ih restValued restAscending _

/-- The maximum stays at its value, or ends at the greatest of the rows with an
id of that value's rows. -/
theorem reached_of_foldlM {selected : List ρ} (valued : Valued columns selected) {best after : Reached}
    (raised : selected.foldlM columns.raise best = some after) :
    best.value ≤ after.value ∧
      (forall row, row ∈ selected -> forall value, columns.watermark row = some value -> value ≤ after.value) ∧
      ((after.value = best.value ∧ (after.lastId = none ↔ best.lastId = none)) ∨
        best.value < after.value ∧ Exists fun row : ρ => row ∈ selected ∧
          columns.watermark row = some after.value ∧ (columns.id row = none ↔ after.lastId = none)) := by
  induction selected generalizing best with
  | nil =>
      cases raised
      exact ⟨le_refl _, fun row member => absurd member List.not_mem_nil, Or.inl ⟨rfl, Iff.rfl⟩⟩
  | cons row rest ih =>
      have restValued : Valued columns rest := fun other member =>
        valued other (List.mem_cons_of_mem row member)
      rcases valued row List.mem_cons_self with ⟨value, carries⟩
      rw [List.foldlM_cons] at raised
      rcases Option.bind_eq_some_iff.mp raised with ⟨next, first, later⟩
      rcases ih restValued later with ⟨grown, greatest, ended⟩
      have reaches : best.value ≤ next.value ∧ value ≤ next.value ∧
          ((next.value = best.value ∧ (next.lastId = none ↔ best.lastId = none)) ∨
            best.value < next.value ∧ next.value = value ∧ next.lastId = columns.id row) := by
        rcases lt_trichotomy value best.value with below | level | above
        · rw [raise_below carries below] at first
          cases first
          exact ⟨le_refl _, le_of_lt below, Or.inl ⟨rfl, Iff.rfl⟩⟩
        · rw [level] at carries
          rcases (raise_level carries).2 next first with ⟨same, ids⟩
          exact ⟨le_of_eq same.symm, le_of_eq (level.trans same.symm), Or.inl ⟨same, ids⟩⟩
        · rw [raise_above carries above] at first
          cases first
          exact ⟨le_of_lt above, le_refl _, Or.inr ⟨above, rfl, rfl⟩⟩
      rcases reaches with ⟨start, reached, origin⟩
      refine ⟨le_trans start grown, ?_, ?_⟩
      · intro other member amount valuedToo
        rcases List.mem_cons.mp member with rfl | inRest
        · rw [carries] at valuedToo
          cases valuedToo
          exact le_trans reached grown
        · exact greatest other inRest amount valuedToo
      · rcases ended with ⟨same, ids⟩ | ⟨beyond, last, member, lastValue, lastIds⟩
        · rcases origin with ⟨sameNext, idsNext⟩ | ⟨above, valueNext, idNext⟩
          · exact Or.inl ⟨same.trans sameNext, ids.trans idsNext⟩
          · refine Or.inr ⟨same ▸ above, row, List.mem_cons_self, ?_, ?_⟩
            · rw [carries, ← valueNext, same]
            · rw [ids, idNext]
        · exact Or.inr ⟨lt_of_le_of_lt start beyond, last, List.mem_cons_of_mem row member, lastValue, lastIds⟩

/-! ## When an object can be synced -/

/-- The fold succeeds and ends on an id exactly when the ids settle. -/
theorem foldlM_raise_iff_idsSettle {selected : List ρ} (valued : Valued columns selected)
    (ascending : Ascending columns selected) (best : Mark) :
    (Exists fun after : Reached =>
      selected.foldlM columns.raise (reachedOf best) = some after ∧ after.lastId ≠ none) ↔
        IdsSettle columns best selected := by
  have compares := isSome_foldlM_raise_iff valued ascending (reachedOf best)
  have some : (reachedOf best).lastId ≠ none := Option.some_ne_none best.lastId
  constructor
  · rintro ⟨after, raised, settled⟩
    have able := compares.mp (Option.isSome_iff_exists.mpr ⟨after, raised⟩)
    refine ⟨fun row member same empty => some ((able.here row member same).mp empty), able.alike, ?_⟩
    intro row member value carries above top empty
    rcases reached_of_foldlM valued raised with ⟨_, greatest, ended⟩
    rcases ended with ⟨same, _⟩ | ⟨beyond, last, lastMember, lastValue, lastIds⟩
    · have bounded := greatest row member value carries
      rw [same] at bounded
      exact absurd above (not_lt.mpr bounded)
    · have level : value = after.value :=
        le_antisymm (greatest row member value carries) (top last lastMember _ lastValue)
      exact settled (lastIds.mp
        (able.alike row member last lastMember (carries.trans (level ▸ lastValue.symm)) value carries above empty))
  · intro settle
    have able : Comparable columns (reachedOf best) selected := by
      refine ⟨fun row member same => ?_, settle.alike⟩
      exact iff_of_false (settle.stored row member same) some
    rcases Option.isSome_iff_exists.mp (compares.mpr able) with ⟨after, raised⟩
    refine ⟨after, raised, fun empty => ?_⟩
    rcases reached_of_foldlM valued raised with ⟨_, greatest, ended⟩
    rcases ended with ⟨_, ids⟩ | ⟨beyond, last, lastMember, lastValue, lastIds⟩
    · exact some (ids.mp empty)
    · exact settle.greatest last lastMember _ lastValue beyond
        (fun other member lower carries => greatest other member lower carries) (lastIds.mpr empty)

theorem IdsSettle.congr {best : Mark} {selected others : List ρ}
    (same : forall row, row ∈ selected ↔ row ∈ others) (settle : IdsSettle columns best selected) :
    IdsSettle columns best others := by
  refine ⟨fun row member => settle.stored row ((same row).mpr member),
    fun row member other otherMember =>
      settle.alike row ((same row).mpr member) other ((same other).mpr otherMember), ?_⟩
  intro row member value carries above top
  exact settle.greatest row ((same row).mpr member) value carries above
    (fun other otherMember => top other ((same other).mp otherMember))

theorem valued_rows (window : Window) (lastId : Int) (rows : List ρ) :
    Valued columns (columns.rows window lastId rows) := by
  intro row member
  rcases value_of_selects (mem_rows.mp member).2 with ⟨value, carries, _⟩
  exact ⟨value, carries⟩

/-- The window is extracted, and ends on an id, exactly when its ids settle. -/
theorem extract_iff_idsSettle {settings : IncrementalSettings} {kind : WatermarkKind} {now : Int}
    {wm : Mark} {rows : List ρ} :
    (Exists fun extraction : RunIncremental.Extraction ρ =>
      extract columns settings kind now wm rows = some extraction ∧ extraction.watermark.lastId ≠ none) ↔
        forall window, windowFor settings now wm kind = some window ->
          IdsSettle columns wm (rows.filter (columns.selects window wm.lastId)) := by
  have members : forall (window : Window) (row : ρ), row ∈ columns.rows window wm.lastId rows ↔
      row ∈ rows.filter (columns.selects window wm.lastId) := by
    intro window row
    rw [mem_rows, List.mem_filter]
  unfold extract
  cases windowFor settings now wm kind with
  | none =>
      refine iff_of_true ⟨_, rfl, Option.some_ne_none _⟩ ?_
      intro window planned
      cases planned
  | some window =>
      have whole : (forall other, some window = some other ->
          IdsSettle columns wm (rows.filter (columns.selects other wm.lastId))) ↔
            IdsSettle columns wm (columns.rows window wm.lastId rows) := by
        constructor
        · intro settle
          exact (settle window rfl).congr (fun row => (members window row).symm)
        · rintro settle other ⟨⟩
          exact settle.congr (members window)
      rw [whole, ← foldlM_raise_iff_idsSettle (valued_rows window wm.lastId rows)
        (ascending_rows window wm.lastId rows) wm]
      cases staged : columns.rows window wm.lastId rows with
      | nil =>
          refine iff_of_true ?_ ⟨_, rfl, Option.some_ne_none _⟩
          simp only [staged]
          cases window.hi with
          | none => exact ⟨_, rfl, Option.some_ne_none _⟩
          | some hi => exact ⟨_, rfl, Option.some_ne_none _⟩
      | cons first rest =>
          simp only [staged]
          constructor
          · rintro ⟨extraction, extracted, settled⟩
            rcases Option.map_eq_some_iff.mp extracted with ⟨watermark, folded, rfl⟩
            exact ⟨watermark, folded, settled⟩
          · rintro ⟨after, folded, settled⟩
            exact ⟨_, Option.map_eq_some_iff.mpr ⟨after, folded, rfl⟩, settled⟩

/-- Where the stored row can be read, it takes every watermark with an id that
Python has. -/
theorem storable_iff {kind : WatermarkKind} {stored : Option Row} {wm : Watermark kind}
    (readable : getWatermark kind stored = some wm) (reached : Reached) :
    Storable kind stored reached ↔ reached.lastId ≠ none ∧ Representable kind reached.value := by
  constructor
  · rintro ⟨attempted, ended, _⟩
    rcases Option.map_eq_some_iff.mp ended with ⟨lastId, kept, same⟩
    refine ⟨fun empty => ?_, attempted.value, (congrArg Mark.value same).symm⟩
    rw [empty] at kept
    cases kept
  · rintro ⟨settled, value, represents⟩
    rcases Option.ne_none_iff_exists'.mp settled with ⟨lastId, ended⟩
    let attempted : Watermark kind := { value := value, lastId := lastId }
    refine ⟨attempted, by rw [Reached.mark, ended, ← represents]; rfl, ?_⟩
    cases stored with
    | none => exact ⟨rowOf kind attempted, rfl, Or.inl (getWatermark_rowOf kind attempted)⟩
    | some row =>
        have parsed : (current kind row).isSome = true := by
          unfold current
          unfold getWatermark at readable
          cases text : row.lastValue with
          | none => rfl
          | some value =>
              simp only [text] at readable ⊢
              rw [readable]
              rfl
        rcases Option.isSome_iff_exists.mp parsed with ⟨held, compared⟩
        by_cases older : attempted.rank ≤ held.rank
        · exact ⟨row, by simp [setWatermark, compared, older], Or.inr ⟨rfl, held, compared, older⟩⟩
        · exact ⟨rowOf kind attempted, by simp [setWatermark, compared, older],
            Or.inl (getWatermark_rowOf kind attempted)⟩

theorem representable_markOf {kind : WatermarkKind} (wm : Watermark kind) :
    Representable kind (markOf wm).value :=
  ⟨wm.value, rfl⟩

/-- An instant that UTC can write is a value of the time-zone aware kind. -/
theorem representable_of_fits {value : Int} (fits : DateTime.fits (epochNaive.micros + value) = true) :
    Representable .timestampTz value := by
  rcases exists_micros fits with ⟨time, counted⟩
  refine ⟨({ wall := time, offset := utc } : AwareDateTime), ?_⟩
  simp only [WatermarkKind.rank, AwareDateTime.instant, defaultValue, epoch, counted, utc]
  omega

/-- The upper bound of a window is a value of its kind when the clock's is. -/
theorem representable_hi {settings : IncrementalSettings} {now : Int} {kind : WatermarkKind}
    {wm : Watermark kind} {window : Window} {hi : Int} (fits : boundsFit settings now kind wm = true)
    (planned : windowFor settings now (markOf wm) kind = some window) (upper : window.hi = some hi) :
    Representable kind hi := by
  have epochOrdinal : epochDate.toordinal = 719163 := by decide
  have epochMicros : epochNaive.micros = 719163 * 86400000000 := by decide
  have start : forall lo bound : Int, bounded lo bound = some window -> bound = hi := by
    intro lo bound room
    unfold bounded at room
    split at room
    · cases room
    · cases room
      exact Option.some.inj upper
  cases kind with
  | timestampTz =>
      rw [← start _ _ planned]
      simp only [boundsFit, Bool.and_eq_true] at fits
      exact representable_of_fits fits.1.2
  | timestampNaive =>
      cases planned
      cases upper
  | date =>
      rw [← start _ _ planned]
      simp only [boundsFit, Bool.and_eq_true] at fits
      rcases exists_toordinal fits.2 with ⟨date, numbered⟩
      refine ⟨date, ?_⟩
      simp only [WatermarkKind.rank, defaultValue, numbered, epochOrdinal, epochMicros, Chunker.microsPerDay]
      omega
  | integer =>
      cases planned
      cases upper

/-- A run ends on the stored value, the upper bound of an empty window, or the value
of a row that was loaded. -/
theorem representable_of_extract {source : OfferedObject ρ} {settings : IncrementalSettings} {now : Int}
    {kind : WatermarkKind} {wm : Watermark kind} {extraction : RunIncremental.Extraction ρ}
    (supported : kindOfColumn source.object.columns "updated_at" = some kind)
    (fits : boundsFit settings now kind wm = true)
    (loads : forall window, windowFor settings now (markOf wm) kind = some window ->
      forall row, row ∈ source.rows.filter (source.accessors.selects window wm.lastId) -> source.loads row = true)
    (ended : extract source.accessors settings kind now (markOf wm) source.rows = some extraction) :
    Representable kind extraction.watermark.value := by
  unfold extract at ended
  cases planned : windowFor settings now (markOf wm) kind with
  | none =>
      simp only [planned] at ended
      cases ended
      exact representable_markOf wm
  | some window =>
      simp only [planned] at ended
      cases staged : source.accessors.rows window (markOf wm).lastId source.rows with
      | nil =>
          simp only [staged] at ended
          cases upper : window.hi with
          | none =>
              simp only [upper] at ended
              cases ended
              exact representable_markOf wm
          | some hi =>
              simp only [upper] at ended
              cases ended
              exact representable_hi fits planned upper
      | cons first rest =>
          simp only [staged] at ended
          rcases Option.map_eq_some_iff.mp ended with ⟨after, folded, rfl⟩
          rw [← staged] at folded
          rcases reached_of_foldlM (valued_rows _ _ _) folded with ⟨_, _, ⟨same, _⟩ | ⟨_, row, member, carries, _⟩⟩
          · exact same.symm ▸ representable_markOf wm
          · have selected := mem_rows.mp member
            exact source.loaded row selected.1
              (loads window planned row (List.mem_filter.mpr selected)) kind supported _ carries

/-- A run on an offered object is extracted when its bounds are times of Python,
PostgreSQL accepts the window's predicate, if it is sent, the selected rows load and
the comparisons succeed. -/
theorem runIncremental_eq_extracted {source : OfferedObject ρ} {settings : IncrementalSettings} {now : Int}
    {stored : Option Row} {kind : WatermarkKind} {wm : Watermark kind}
    (supported : kindOfColumn source.object.columns "updated_at" = some kind)
    (readable : getWatermark kind stored = some wm) {other : WatermarkKind}
    {extraction : RunIncremental.Extraction ρ} :
    source.runIncremental settings now stored = .extracted other extraction ↔
      other = kind ∧ boundsFit settings now kind wm = true ∧
        (forall window, windowFor settings now (markOf wm) kind = some window ->
          source.idType.comparesWithBigint = true ∧
            forall row, row ∈ source.rows.filter (source.accessors.selects window wm.lastId) ->
              source.loads row = true) ∧
        extract source.accessors settings kind now (markOf wm) source.rows = some extraction := by
  unfold OfferedObject.runIncremental
  simp only [supported, readable]
  cases fits : boundsFit settings now kind wm with
  | false => simp
  | true =>
      cases planned : windowFor settings now (markOf wm) kind with
      | none =>
          have ended : extract source.accessors settings kind now (markOf wm) source.rows =
              some { staged := none, watermark := reachedOf (markOf wm) } := by
            simp only [extract, planned]
          rw [ended]
          simp only [Bool.true_eq_false, if_false, Outcome.extracted.injEq, Option.some.injEq, true_and]
          constructor
          · rintro ⟨sameKind, same⟩
            refine ⟨sameKind.symm, ?_, same⟩
            rintro window ⟨⟩
          · rintro ⟨sameKind, _, same⟩
            exact ⟨sameKind.symm, same⟩
      | some window =>
          cases typed : source.idType.comparesWithBigint with
          | false => simp
          | true =>
              cases loads : (source.rows.filter (source.accessors.selects window wm.lastId)).all source.loads with
              | false =>
                  simp only [Bool.true_eq_false, if_false, loads, if_true]
                  refine iff_of_false (fun same => by cases same) ?_
                  rintro ⟨_, _, able, _⟩
                  rw [List.all_eq_true.mpr (able window rfl).2] at loads
                  cases loads
              | true =>
                  have able := List.all_eq_true.mp loads
                  simp only [Bool.true_eq_false, if_false, loads, true_and]
                  cases extract source.accessors settings kind now (markOf wm) source.rows with
                  | none => simp
                  | some result =>
                      simp only [Outcome.extracted.injEq, Option.some.injEq]
                      constructor
                      · rintro ⟨sameKind, same⟩
                        refine ⟨sameKind.symm, ?_, same⟩
                        rintro other rfl
                        exact able
                      · rintro ⟨sameKind, _, same⟩
                        exact ⟨sameKind.symm, same⟩

theorem comparesWithBigint_iff (type : IdType) : type.comparesWithBigint = true ↔ type = .integer := by
  cases type <;> decide

/-- An offered object can be synced exactly when the bounds of its window are times
that Python has and, if there is a window, its ids are integers, the rows in it load
and their ids settle. -/
theorem canBeSynced_iff (source : OfferedObject ρ) (settings : IncrementalSettings) (now : Int)
    {stored : Option Row} {kind : WatermarkKind} {wm : Watermark kind}
    (supported : kindOfColumn source.object.columns "updated_at" = some kind)
    (readable : getWatermark kind stored = some wm) :
    CanBeSynced source settings now stored ↔
      boundsFit settings now kind wm = true ∧
        forall window, windowFor settings now (markOf wm) kind = some window ->
          source.idType = .integer ∧
            (forall row, row ∈ source.rows.filter (source.accessors.selects window wm.lastId) ->
              source.loads row = true) ∧
            IdsSettle source.accessors (markOf wm)
              (source.rows.filter (source.accessors.selects window wm.lastId)) := by
  constructor
  · rintro ⟨other, extraction, extracted, storable⟩
    rcases (runIncremental_eq_extracted supported readable).mp extracted with ⟨rfl, fits, able, ended⟩
    refine ⟨fits, fun window planned => ?_⟩
    have settled := ((storable_iff readable extraction.watermark).mp storable).1
    exact ⟨(comparesWithBigint_iff _).mp (able window planned).1, (able window planned).2,
      extract_iff_idsSettle.mp ⟨extraction, ended, settled⟩ window planned⟩
  · rintro ⟨fits, able⟩
    have settles : forall window, windowFor settings now (markOf wm) kind = some window ->
        IdsSettle source.accessors (markOf wm)
          (source.rows.filter (source.accessors.selects window (markOf wm).lastId)) :=
      fun window planned => (able window planned).2.2
    rcases extract_iff_idsSettle.mpr settles with ⟨extraction, ended, settled⟩
    refine ⟨kind, extraction, (runIncremental_eq_extracted supported readable).mpr ⟨rfl, fits, ?_, ended⟩,
      (storable_iff readable _).mpr ⟨settled, ?_⟩⟩
    · intro window planned
      exact ⟨(comparesWithBigint_iff _).mpr (able window planned).1, (able window planned).2.1⟩
    · exact representable_of_extract supported fits (fun window planned => (able window planned).2.1) ended

/-- Where no row is without an id there is nothing to settle. -/
theorem idsSettle_of_ids {best : Mark} {selected : List ρ}
    (ids : forall row, row ∈ selected -> columns.id row ≠ none) : IdsSettle columns best selected :=
  ⟨fun row member _ => ids row member,
    fun row member _ _ _ _ _ _ empty => absurd empty (ids row member),
    fun row member _ _ _ _ => ids row member⟩

/-- An object with an `updated_at` in UTC and an id of this type. -/
def objectWithId (name pgType : String) : DiscoveredObject :=
  { schema := "public"
    name := name
    columns := [{ name := "id", pgType := pgType }, { name := "updated_at", pgType := "timestamp with time zone" }] }

theorem kindOfColumn_objectWithId (name pgType : String) :
    kindOfColumn (objectWithId name pgType).columns "updated_at" = some .timestampTz := by
  have type : watermarkKind (pgToArrowType "timestamp with time zone") = some .timestampTz := by decide
  unfold kindOfColumn objectWithId
  simp [type]

/-- Rows with times of 1970 load. -/
theorem loaded_objectWithId {ρ : Type} (name pgType : String) (watermark : ρ -> Option Int) (rows : List ρ)
    (early : forall row, row ∈ rows -> forall value, watermark row = some value -> 0 ≤ value ∧ value < 86400000000) :
    forall row, row ∈ rows -> forall kind,
      kindOfColumn (objectWithId name pgType).columns "updated_at" = some kind ->
        forall value, watermark row = some value -> Representable kind value := by
  intro row member kind supported value carries
  rw [kindOfColumn_objectWithId] at supported
  cases supported
  have epochMicros : epochNaive.micros = 719163 * 86400000000 := by decide
  have range := early row member value carries
  apply representable_of_fits
  simp only [DateTime.fits, Date.fits, epochMicros, Bool.and_eq_true, decide_eq_true_eq]
  omega

/-- Five minutes of overlap and half a minute of safety gap. -/
def defaultSettings : IncrementalSettings :=
  { overlapSeconds := 300, gapSeconds := 30 }

theorem early_events : forall row, row ∈ [((5000000 : Int), (1 : Int)), (7000000, 2)] ->
    forall value, some row.1 = some value -> 0 ≤ value ∧ value < 86400000000 := by
  simp

def events : OfferedObject (Int × Int) :=
  { object := objectWithId "events" "bigint"
    idType := .integer
    watermark := fun row => some row.1
    id := fun row => some row.2
    loads := fun _ => true
    rows := [(5000000, 1), (7000000, 2)]
    offered := by decide
    declared := by decide
    loaded := fun row member _ => loaded_objectWithId _ _ _ _ early_events row member }

/-- The table of the discovery test: its ids are UUIDs. -/
def sessions : OfferedObject (Int × BitVec 128) :=
  { object := objectWithId "sessions" "uuid"
    idType := .uuid
    watermark := fun row => some row.1
    id := fun row => some row.2
    loads := fun _ => true
    rows := []
    offered := by decide
    declared := by decide
    loaded := fun _ member => absurd member List.not_mem_nil }

theorem early_summary : forall row, row ∈ [((5000000 : Int), some (1 : Int)), (5000000, none)] ->
    forall value, some row.1 = some value -> 0 ≤ value ∧ value < 86400000000 := by
  simp

/-- A view whose left join leaves an id out. -/
def summary : OfferedObject (Int × Option Int) :=
  { object := objectWithId "summary" "bigint"
    idType := .integer
    watermark := fun row => some row.1
    id := fun row => row.2
    loads := fun _ => true
    rows := [(5000000, some 1), (5000000, none)]
    offered := by decide
    declared := by decide
    loaded := fun row member _ => loaded_objectWithId _ _ _ _ early_summary row member }

theorem events_can_be_synced : CanBeSynced events defaultSettings 100000000 none := by
  apply (canBeSynced_iff events defaultSettings 100000000 (kindOfColumn_objectWithId _ _) rfl).mpr
  refine ⟨by decide, fun window _ => ?_⟩
  exact ⟨rfl, fun _ _ => rfl, idsSettle_of_ids (fun row _ => Option.some_ne_none _)⟩

/-- The id of `sessions` does not compare with the stored id, and `summary` ends
in a `TypeError`. -/
theorem sessions_cannot_be_synced :
    ¬ CanBeSynced sessions defaultSettings 100000000 none ∧
      ¬ CanBeSynced summary defaultSettings 100000000 none := by
  let first : Watermark .timestampTz := { value := defaultValue .timestampTz, lastId := 0 }
  have planned : windowFor defaultSettings 100000000 (markOf first) .timestampTz =
      some { lo := -300000000, hi := some 70000000 } := by decide
  have raised : extract summary.accessors defaultSettings .timestampTz 100000000 (markOf first)
      summary.rows = none := by decide
  constructor
  · rintro ⟨kind, extraction, extracted, _⟩
    have able := ((runIncremental_eq_extracted (kindOfColumn_objectWithId _ _) rfl).mp extracted).2.2.1
    exact absurd (able _ planned).1 Bool.false_ne_true
  · rintro ⟨kind, extraction, extracted, _⟩
    have ended := ((runIncremental_eq_extracted (kindOfColumn_objectWithId _ _) rfl).mp extracted).2.2.2
    rw [raised] at ended
    cases ended

end OfferedObjects
end WarehouseSync

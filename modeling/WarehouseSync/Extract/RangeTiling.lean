import WarehouseSync.Extract.Chunker
import WarehouseSync.Library.Loops
import Mathlib.Data.List.Range
import Mathlib.Tactic.Ring

namespace WarehouseSync
namespace RangeTiling

open Splitting Chunker Loops

/-!
# The loops that cut id ranges (`plan_range_chunks`, `plan_partitioned_chunks`)

Both planners walk through an id range with the same `while` loop, one of them
once and the other once a day with a counter of chunk ids that is carried from
day to day.  The loops are written here with their variables.  They end, with
exactly the chunks that the plans of `Chunker` list, and for each range these
chunks tile it and stay below twice the intended number.
-/

universe u

/-- The variables of a planner: the next chunk id and the chunks so far.  Both
change together, which is why the ids come out without a gap. -/
structure Plan where
  cid : Nat
  chunks : List Chunk

/-- The variables of the loop through one id range, with the place that it has come
to. -/
structure Walk extends Plan where
  curLo : Int

/-- A row of the `GROUP BY`.  Any of its fields may be NULL, since the planner does
not check what the query has returned. -/
structure DayGroup where
  d : Option Int
  n : Option Int
  lo : Option Int
  hi : Option Int

/-- `while cur_lo <= hi`. -/
def more (hi : Int) (walk : Walk) : Bool :=
  decide (walk.curLo ≤ hi)

/-- The body of the loop; `whole` carries the fields that do not depend on it.  The
last piece ends one behind the greatest id, because ranges do not include their
upper end. -/
def round (whole : Chunk) (hi step : Int) (walk : Walk) : Walk :=
  let nxt := walk.curLo + step
  let chunk :=
    { whole with
      chunkId := walk.cid, lo := some walk.curLo, hi := some (if nxt ≤ hi then nxt else hi + 1) }
  { curLo := nxt, cid := walk.cid + 1, chunks := walk.chunks ++ [chunk] }

/-- From `n_chunks = ...` to the end of the loop.  A target of zero raises
`ZeroDivisionError`.  It is a relation, so that whether the loop ends is something
to prove and not to assume. -/
def PlansIds (whole : Chunk) (target lo hi count : Int) (plan next : Plan) : Prop :=
  target ≠ 0 ∧ Exists fun last : Walk =>
    While (more hi) (round whole hi (stepFor lo hi count target)) { plan with curLo := lo } last ∧
      next = last.toPlan

/-- `plan_range_chunks`, from the bounds of the ids and the planner statistic on. -/
def PlansRange (schema table : String) (target approxRows : Int) (bounds : Option (Int × Int))
    (chunks : List Chunk) : Prop :=
  match bounds with
  | none => chunks = []
  | some (lo, hi) => Exists fun last : Plan =>
      PlansIds (fullChunk schema table) target lo hi approxRows { cid := 0, chunks := [] } last ∧
        chunks = last.chunks

/-- The body of the loop over the days.  A day without numeric ids is one chunk, and
a day whose ids are all NULL is none. -/
def PlansDay (schema table partCol : String) (partTz hasNumericId : Bool) (target : Int)
    (group : DayGroup) (plan next : Plan) : Prop :=
  if hasNumericId = false ∨ group.d = none then
    next = { cid := plan.cid + 1
             chunks := plan.chunks ++
               [{ dayChunk schema table partCol partTz group.d with chunkId := plan.cid }] }
  else
    match group.lo, group.hi with
    | some lo, some hi =>
        PlansIds (dayChunk schema table partCol partTz group.d) target lo hi (group.n.getD 0) plan next
    | _, _ => next = plan

/-- `plan_partitioned_chunks`, from the rows of the `GROUP BY` on, as the loops with
their variables. -/
def PlansPartitioned (schema table partCol : String) (partTz hasNumericId : Bool) (target : Int)
    (groups : List DayGroup) (chunks : List Chunk) : Prop :=
  Exists fun last : Plan =>
    ForEach (PlansDay schema table partCol partTz hasNumericId target) groups
        { cid := 0, chunks := [] } last ∧
      chunks = last.chunks

/-- Chunk ids from a first one on. -/
def numberedFrom (first : Nat) (chunks : List Chunk) : List Chunk :=
  chunks.mapIdx (fun index chunk => { chunk with chunkId := first + index })

theorem numberedFrom_zero (chunks : List Chunk) : numberedFrom 0 chunks = numbered chunks := by
  simp only [numberedFrom, numbered, Nat.zero_add]

theorem numberedFrom_cons (first : Nat) (chunk : Chunk) (chunks : List Chunk) :
    numberedFrom first (chunk :: chunks) =
      { chunk with chunkId := first } :: numberedFrom (first + 1) chunks := by
  simp only [numberedFrom, List.mapIdx_cons, Nat.add_zero, Nat.add_assoc, Nat.add_comm 1]

@[simp] theorem length_numberedFrom (first : Nat) (chunks : List Chunk) :
    (numberedFrom first chunks).length = chunks.length :=
  List.length_mapIdx

theorem numberedFrom_append (first : Nat) (left right : List Chunk) :
    numberedFrom first (left ++ right) =
      numberedFrom first left ++ numberedFrom (first + left.length) right := by
  induction left generalizing first with
  | nil => rfl
  | cons chunk left ih =>
      rw [List.cons_append, numberedFrom_cons, numberedFrom_cons, ih, List.length_cons,
        Nat.add_assoc first 1, Nat.add_comm 1, List.cons_append]

/-- The pieces of an id range, before they get their ids. -/
def pieces (whole : Chunk) (ranges : List (Int × Int)) : List Chunk :=
  ranges.map (fun range => { whole with lo := some range.1, hi := some range.2 })

/-- The plan with some more chunks. -/
def Plan.extend (plan : Plan) (chunks : List Chunk) : Plan where
  cid := plan.cid + chunks.length
  chunks := plan.chunks ++ numberedFrom plan.cid chunks

theorem Plan.extend_extend (plan : Plan) (left right : List Chunk) :
    (plan.extend left).extend right = plan.extend (left ++ right) := by
  simp only [Plan.extend, List.length_append, Nat.add_assoc, List.append_assoc, numberedFrom_append]

/-- Each round of the loop adds the next piece, and the loop ends because the
step is positive. -/
theorem while_ends (whole : Chunk) {hi step : Int} (positive : 1 ≤ step) (rounds : Nat) (walk : Walk)
    (enough : (hi + 1 - walk.curLo).toNat ≤ rounds) :
    Exists fun last : Walk => While (more hi) (round whole hi step) walk last ∧
      last.toPlan = walk.toPlan.extend (pieces whole (rangesFrom step hi rounds walk.curLo)) := by
  induction rounds generalizing walk with
  | zero =>
      refine ⟨walk, While.exit (decide_eq_false (by omega)), ?_⟩
      simp [rangesFrom, pieces, Plan.extend, numberedFrom]
  | succ rounds ih =>
      by_cases inside : walk.curLo ≤ hi
      · have fewer : (hi + 1 - (walk.curLo + step)).toNat ≤ rounds := by omega
        rcases ih (round whole hi step walk) fewer with ⟨last, rest, result⟩
        refine ⟨last, While.round (decide_eq_true inside) rest, ?_⟩
        rw [result, rangesFrom, if_pos inside]
        simp only [pieces, List.map_cons, Plan.extend, round, numberedFrom_cons, List.append_assoc,
          List.singleton_append, List.length_cons, Plan.mk.injEq, and_true]
        omega
      · refine ⟨walk, While.exit (decide_eq_false inside), ?_⟩
        rw [rangesFrom, if_neg inside]
        simp [pieces, Plan.extend, numberedFrom]

/-- The loop adds the pieces of the range, for every step that is computed. -/
theorem plansIds_iff (whole : Chunk) (target lo hi count : Int) (plan next : Plan) :
    PlansIds whole target lo hi count plan next ↔
      target ≠ 0 ∧ next = plan.extend (pieces whole (ranges lo hi (stepFor lo hi count target))) := by
  have positive : 1 ≤ stepFor lo hi count target := le_max_left _ _
  rcases while_ends whole positive _ { plan with curLo := lo } (Nat.le_refl _) with ⟨last, ended, result⟩
  apply and_congr_right
  intro _
  constructor
  · rintro ⟨other, again, rfl⟩
    rw [ended.unique again]
    exact result
  · intro same
    exact ⟨last, ended, same.trans result.symm⟩

/-- The chunks of one day, before they get their ids.  This is what a day adds to a
plan, apart from where the numbering has come to. -/
def dayPieces (schema table partCol : String) (partTz hasNumericId : Bool) (target : Int)
    (group : DayGroup) : List Chunk :=
  let whole := dayChunk schema table partCol partTz group.d
  if hasNumericId = false ∨ group.d = none then [whole]
  else
    match group.lo, group.hi with
    | some lo, some hi => pieces whole (ranges lo hi (stepFor lo hi (group.n.getD 0) target))
    | _, _ => []

theorem plansDay_iff (schema table partCol : String) (partTz hasNumericId : Bool) {target : Int}
    (nonzero : target ≠ 0) (group : DayGroup) (plan next : Plan) :
    PlansDay schema table partCol partTz hasNumericId target group plan next ↔
      next = plan.extend (dayPieces schema table partCol partTz hasNumericId target group) := by
  unfold PlansDay dayPieces
  by_cases single : hasNumericId = false ∨ group.d = none
  · rw [if_pos single, if_pos single]
    rfl
  · rw [if_neg single, if_neg single]
    cases group.lo with
    | none => simp [Plan.extend, numberedFrom]
    | some lo =>
        cases group.hi with
        | none => simp [Plan.extend, numberedFrom]
        | some hi => exact (plansIds_iff _ _ _ _ _ _ _).trans (and_iff_right nonzero)

theorem foldl_extend {items : Type u} (chunksOf : items -> List Chunk) (groups : List items) (plan : Plan) :
    groups.foldl (fun current group => current.extend (chunksOf group)) plan =
      plan.extend (groups.flatMap chunksOf) := by
  induction groups generalizing plan with
  | nil => simp [Plan.extend, numberedFrom]
  | cons group groups ih => rw [List.foldl_cons, ih, List.flatMap_cons, Plan.extend_extend]

/-- The partitioned plan is the chunks of the days, numbered through. -/
theorem plansPartitioned_iff (schema table partCol : String) (partTz hasNumericId : Bool) {target : Int}
    (nonzero : target ≠ 0) (groups : List DayGroup) (chunks : List Chunk) :
    PlansPartitioned schema table partCol partTz hasNumericId target groups chunks ↔
      chunks = numbered
        (groups.flatMap (dayPieces schema table partCol partTz hasNumericId target)) := by
  have each := plansDay_iff schema table partCol partTz hasNumericId nonzero
  have whole := forEach_iff_foldl each groups { cid := 0, chunks := [] }
  simp only [foldl_extend] at whole
  rw [PlansPartitioned, ← numberedFrom_zero]
  constructor
  · rintro ⟨last, ended, rfl⟩
    rw [(whole last).mp ended]
    rfl
  · rintro rfl
    exact ⟨_, (whole _).mpr rfl, rfl⟩

theorem plansRange_iff (schema table : String) (target approxRows lo hi : Int) (chunks : List Chunk) :
    PlansRange schema table target approxRows (some (lo, hi)) chunks ↔
      target ≠ 0 ∧ chunks = numbered (pieces (fullChunk schema table)
        (ranges lo hi (stepFor lo hi approxRows target))) := by
  rw [PlansRange, ← numberedFrom_zero]
  simp only [plansIds_iff]
  constructor
  · rintro ⟨last, ⟨nonzero, rfl⟩, rfl⟩
    exact ⟨nonzero, rfl⟩
  · rintro ⟨nonzero, rfl⟩
    exact ⟨_, ⟨nonzero, rfl⟩, rfl⟩

/-! ## The plans of a table -/

variable {ρ : Type u}

/-- The loop of `plan_range_chunks` gives the plan of the table, and raises
where it does. -/
theorem plansRange_iff_planRangeChunks (columns : SourceColumns ρ) (schema table : String)
    (target approxRows : Int) (rows : List ρ) (chunks : List Chunk) :
    PlansRange schema table target approxRows (idBounds columns rows) chunks ↔
      planRangeChunks columns schema table target approxRows rows = some chunks := by
  cases bounds : idBounds columns rows with
  | none => simp [planRangeChunks, bounds, PlansRange, eq_comm]
  | some pair =>
      rcases pair with ⟨lo, hi⟩
      rw [plansRange_iff]
      simp [planRangeChunks, bounds, pieces, eq_comm]

/-- A row of the `GROUP BY`, computed from the rows of its day. -/
def groupOf (columns : SourceColumns ρ) (partCol : String) (partTz : Bool) (rows : List ρ)
    (day : Option Int) : DayGroup :=
  let group := rows.filter (fun row => decide (columns.dayOf partCol partTz row = day))
  { d := day, n := some group.length, lo := (idBounds columns group).map Prod.fst
    hi := (idBounds columns group).map Prod.snd }

/-- What the `GROUP BY` returns. -/
def groupsOf (columns : SourceColumns ρ) (partCol : String) (partTz : Bool) (rows : List ρ) : List DayGroup :=
  (dayGroups columns partCol partTz rows).map (groupOf columns partCol partTz rows)

/-- The loops of `plan_partitioned_chunks` give the plan of the table. -/
theorem plansPartitioned_iff_planPartitionedChunks (columns : SourceColumns ρ)
    (schema table partCol : String) (partTz numericId : Bool) {target : Int} (nonzero : target ≠ 0)
    (rows : List ρ) (chunks : List Chunk) :
    PlansPartitioned schema table partCol partTz numericId target
        (groupsOf columns partCol partTz rows) chunks ↔
      planPartitionedChunks columns schema table partCol partTz numericId target rows = some chunks := by
  have each : groupChunks columns schema table partCol partTz numericId target rows = fun day =>
      some (dayPieces schema table partCol partTz numericId target
        (groupOf columns partCol partTz rows day)) := by
    funext day
    unfold groupChunks dayPieces
    by_cases single : numericId = false ∨ day = none
    · exact (if_pos single).trans (congrArg some (if_pos single).symm)
    · refine (if_neg single).trans (Eq.trans ?_ (congrArg some (if_neg single).symm))
      simp only [groupOf]
      cases idBounds columns
          (rows.filter (fun row => decide (columns.dayOf partCol partTz row = day))) with
      | none => rfl
      | some pair => exact if_neg nonzero
  have grouped : (dayGroups columns partCol partTz rows).mapM
      (groupChunks columns schema table partCol partTz numericId target rows) =
        some ((groupsOf columns partCol partTz rows).map
          (dayPieces schema table partCol partTz numericId target)) := by
    rw [each, groupsOf, List.map_map]
    exact List.mapM_pure
  rw [plansPartitioned_iff schema table partCol partTz numericId nonzero, planPartitionedChunks,
    grouped, List.flatMap_def]
  exact ⟨fun same => congrArg some same.symm, fun same => (Option.some.inj same).symm⟩

/-- The half-open id range of a chunk. -/
def idRange (chunk : Chunk) : Option (Int × Int) :=
  match chunk.lo, chunk.hi with
  | some lo, some hi => some (lo, hi)
  | _, _ => none

/-- The chunks cut the ids from `lo` to `hi` into non-empty pieces, fewer than twice
the intended number.  A tiling leaves no id out and has none twice. -/
structure CutsIds (lo hi count target : Int) (chunks : List Chunk) : Prop where
  tiling : Exists fun ranges : List (Int × Int) =>
    chunks.map idRange = ranges.map some ∧ Tiling lo (hi + 1) ranges
  few : (chunks.length : Int) ≤ 2 * max 1 (count.fdiv target) - 1

/-- With a step of `max(1, span // n)` there are at most `2 n - 1` pieces.  If
there were more, the whole steps before the last would take more ids than the
span has, which the remainder of the division is too small to make up for. -/
theorem length_ranges_le {lo hi : Int} (ordered : lo ≤ hi) (count target : Int) :
    ((ranges lo hi (stepFor lo hi count target)).length : Int) ≤ 2 * max 1 (count.fdiv target) - 1 := by
  have positive : 1 ≤ stepFor lo hi count target := le_max_left _ _
  have counted := length_rangesFrom positive (hi + 1 - lo).toNat lo ordered
  have intended : 1 ≤ max 1 (count.fdiv target) := le_max_left _ _
  rw [← ranges] at counted
  generalize ((ranges lo hi (stepFor lo hi count target)).length : Int) = length at counted ⊢
  unfold stepFor at counted positive
  generalize max 1 (count.fdiv target) = n at counted positive intended ⊢
  have remainder : hi - lo + 1 < ((hi - lo + 1).fdiv n + 1) * n := by
    rw [Int.fdiv_eq_ediv_of_nonneg _ (by omega)]
    exact Int.lt_ediv_add_one_mul_self _ (by omega)
  have step_le : (hi - lo + 1).fdiv n ≤ max 1 ((hi - lo + 1).fdiv n) := le_max_right _ _
  refine not_lt.mp fun many => ?_
  generalize max 1 ((hi - lo + 1).fdiv n) = step at *
  have whole : (2 * n - 1) * step ≤ (length - 1) * step :=
    Int.mul_le_mul_of_nonneg_right (by omega) (by omega)
  have losing : ((hi - lo + 1).fdiv n + 1) * n ≤ (step + 1) * n :=
    Int.mul_le_mul_of_nonneg_right (by omega) (by omega)
  have least : (n - 1) * 1 ≤ (n - 1) * step := Int.mul_le_mul_of_nonneg_left positive (by omega)
  have steps : (2 * n - 1) * step = (n - 1) * step + n * step := by ring
  have upper : (step + 1) * n = n * step + n := by ring
  omega

theorem map_idRange_pieces (whole : Chunk) (ranges : List (Int × Int)) :
    (pieces whole ranges).map idRange = ranges.map some := by
  rw [pieces, List.map_map]
  rfl

theorem cutsIds_pieces {lo hi : Int} (ordered : lo ≤ hi) (whole : Chunk) (count target : Int) :
    CutsIds lo hi count target (pieces whole (ranges lo hi (stepFor lo hi count target))) where
  tiling := ⟨_, map_idRange_pieces whole _, tiling_ranges (le_max_left _ _) ordered⟩
  few := by
    rw [pieces, List.length_map]
    exact length_ranges_le ordered count target

/-- Only the ranges matter for a cut. -/
theorem CutsIds.congr {lo hi count target : Int} {chunks others : List Chunk}
    (cuts : CutsIds lo hi count target chunks) (same : others.map idRange = chunks.map idRange) :
    CutsIds lo hi count target others where
  tiling := by
    rw [same]
    exact cuts.tiling
  few := by
    have lengths := congrArg List.length same
    rw [List.length_map, List.length_map] at lengths
    rw [lengths]
    exact cuts.few

theorem map_chunkId_numberedFrom (first : Nat) (chunks : List Chunk) :
    (numberedFrom first chunks).map Chunk.chunkId = List.range' first chunks.length := by
  induction chunks generalizing first with
  | nil => rfl
  | cons chunk chunks ih =>
      rw [numberedFrom_cons, List.map_cons, ih, List.length_cons, List.range'_succ]

/-- The ids of a plan count its chunks. -/
theorem map_chunkId_numbered (chunks : List Chunk) :
    (numbered chunks).map Chunk.chunkId = List.range (numbered chunks).length := by
  rw [← numberedFrom_zero, map_chunkId_numberedFrom, length_numberedFrom, List.range_eq_range']

/-- Numbering leaves the ranges as they are, also of the chunks that a test
which does not look at the ids selects. -/
theorem map_idRange_filter_numberedFrom (first : Nat) {keep : Chunk -> Bool}
    (blind : forall (chunk : Chunk) (cid : Nat), keep { chunk with chunkId := cid } = keep chunk)
    (chunks : List Chunk) :
    ((numberedFrom first chunks).filter keep).map idRange = (chunks.filter keep).map idRange := by
  induction chunks generalizing first with
  | nil => rfl
  | cons chunk chunks ih =>
      rw [numberedFrom_cons]
      cases kept : keep chunk with
      | true =>
          rw [List.filter_cons_of_pos kept, List.filter_cons_of_pos ((blind chunk first).trans kept),
            List.map_cons, List.map_cons, ih]
          rfl
      | false =>
          have renumbered := (blind chunk first).trans kept
          rw [List.filter_cons_of_neg (by rw [renumbered]; decide),
            List.filter_cons_of_neg (by rw [kept]; decide), ih]

theorem day_of_mem_dayPieces {schema table partCol : String} {partTz hasNumericId : Bool} {target : Int}
    {group : DayGroup} {chunk : Chunk}
    (member : chunk ∈ dayPieces schema table partCol partTz hasNumericId target group) :
    chunk.day = group.d := by
  unfold dayPieces at member
  split at member
  · rw [List.mem_singleton.mp member]
    rfl
  · split at member
    · rcases List.mem_map.mp member with ⟨_, _, rfl⟩
      rfl
    · cases member

/-- The chunks of a day are those that its own group contributes. -/
theorem filter_flatMap_dayPieces {schema table partCol : String} {partTz hasNumericId : Bool} {target : Int}
    {groups : List DayGroup} (distinct : (groups.map DayGroup.d).Nodup) {group : DayGroup}
    (member : group ∈ groups) :
    (groups.flatMap (dayPieces schema table partCol partTz hasNumericId target)).filter
        (fun chunk => chunk.day = group.d) =
      dayPieces schema table partCol partTz hasNumericId target group := by
  induction groups with
  | nil => cases member
  | cons first groups ih =>
      rw [List.map_cons, List.nodup_cons] at distinct
      rw [List.flatMap_cons, List.filter_append]
      rcases List.mem_cons.mp member with rfl | later
      · have own : (dayPieces schema table partCol partTz hasNumericId target group).filter
            (fun chunk => chunk.day = group.d) =
              dayPieces schema table partCol partTz hasNumericId target group := by
          apply List.filter_eq_self.mpr
          intro chunk listed
          exact decide_eq_true (day_of_mem_dayPieces listed)
        have others : (groups.flatMap (dayPieces schema table partCol partTz hasNumericId target)).filter
            (fun chunk => chunk.day = group.d) = [] := by
          apply List.filter_eq_nil_iff.mpr
          intro chunk listed same
          rcases List.mem_flatMap.mp listed with ⟨other, present, inside⟩
          have day := (day_of_mem_dayPieces inside).symm.trans (of_decide_eq_true same)
          exact distinct.1 (List.mem_map.mpr ⟨other, present, day⟩)
        rw [own, others, List.append_nil]
      · have foreign : (dayPieces schema table partCol partTz hasNumericId target first).filter
            (fun chunk => chunk.day = group.d) = [] := by
          apply List.filter_eq_nil_iff.mpr
          intro chunk listed same
          have day := (day_of_mem_dayPieces listed).symm.trans (of_decide_eq_true same)
          exact distinct.1 (List.mem_map.mpr ⟨group, later, day.symm⟩)
        rw [foreign, ih distinct.2 later, List.nil_append]

/-- Both planners end for every table, number their chunks without a gap or a
repetition, and tile each id range that they cut.  The estimate of the row count may
be anything; it decides how many pieces there are and not what they cover. -/
theorem planned_ranges_tile (schema table : String) {target : Int} (positive : 1 ≤ target) :
    (forall lo hi estimate : Int, lo ≤ hi -> Exists fun chunks : List Chunk =>
      PlansRange schema table target estimate (some (lo, hi)) chunks ∧
      chunks.map Chunk.chunkId = List.range chunks.length ∧
      CutsIds lo hi estimate target chunks) ∧
    (forall (partCol : String) (partTz hasNumericId : Bool) (groups : List DayGroup),
      (groups.map DayGroup.d).Nodup -> Exists fun chunks : List Chunk =>
        PlansPartitioned schema table partCol partTz hasNumericId target groups chunks ∧
        chunks.map Chunk.chunkId = List.range chunks.length ∧
        forall group, group ∈ groups -> hasNumericId = true -> group.d ≠ none ->
          forall lo hi, group.lo = some lo -> group.hi = some hi -> lo ≤ hi ->
            CutsIds lo hi (group.n.getD 0) target
              (chunks.filter (fun chunk => chunk.day = group.d))) := by
  have nonzero : target ≠ 0 := by omega
  constructor
  · intro lo hi estimate ordered
    refine ⟨_, (plansRange_iff _ _ _ _ _ _ _).mpr ⟨nonzero, rfl⟩, map_chunkId_numbered _, ?_⟩
    apply (cutsIds_pieces ordered (fullChunk schema table) estimate target).congr
    have all := @map_idRange_filter_numberedFrom 0 (fun _ => true) (fun _ _ => rfl)
      (pieces (fullChunk schema table) (ranges lo hi (stepFor lo hi estimate target)))
    rw [List.filter_true, List.filter_true, numberedFrom_zero] at all
    exact all
  · intro partCol partTz hasNumericId groups distinct
    refine ⟨_, (plansPartitioned_iff _ _ _ _ _ nonzero _ _).mpr rfl, map_chunkId_numbered _, ?_⟩
    intro group member byId known lo hi least greatest ordered
    have own : dayPieces schema table partCol partTz hasNumericId target group =
        pieces (dayChunk schema table partCol partTz group.d)
          (ranges lo hi (stepFor lo hi (group.n.getD 0) target)) := by
      rw [dayPieces, if_neg (by simp [byId, known]), least, greatest]
    apply (cutsIds_pieces ordered (dayChunk schema table partCol partTz group.d) _ target).congr
    rw [← own, ← filter_flatMap_dayPieces distinct member, ← numberedFrom_zero]
    exact map_idRange_filter_numberedFrom 0 (fun _ _ => rfl) _

/-- Three ids in chunks of one, and a day whose estimate asks for more pieces
than it has ids. -/
theorem planned_ranges_tile_example :
    (Exists fun chunks : List Chunk =>
      PlansRange "public" "events" 1 3 (some (1, 3)) chunks ∧
      chunks.map Chunk.chunkId = List.range chunks.length ∧ CutsIds 1 3 3 1 chunks) ∧
    (Exists fun chunks : List Chunk =>
      PlansPartitioned "public" "events" "created_at" false true 1
        [⟨some 10, some 5, some 1, some 2⟩, ⟨none, some 1, none, none⟩] chunks ∧
      chunks.map Chunk.chunkId = List.range chunks.length ∧
      CutsIds 1 2 5 1 (chunks.filter (fun chunk => chunk.day = some 10))) := by
  have tiles := planned_ranges_tile "public" "events" (by decide : (1 : Int) ≤ 1)
  refine ⟨tiles.1 1 3 3 (by decide), ?_⟩
  rcases tiles.2 "created_at" false true
      [⟨some 10, some 5, some 1, some 2⟩, ⟨none, some 1, none, none⟩] (by decide) with
    ⟨chunks, planned, numbers, days⟩
  refine ⟨chunks, planned, numbers, ?_⟩
  exact days ⟨some 10, some 5, some 1, some 2⟩ List.mem_cons_self rfl (by decide) 1 2 rfl rfl (by decide)

end RangeTiling
end WarehouseSync

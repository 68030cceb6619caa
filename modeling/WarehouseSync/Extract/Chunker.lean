import WarehouseSync.Library.Splitting
import Mathlib.Data.List.Dedup
import Mathlib.Data.List.Sort
import Mathlib.Data.List.MinMax
import Mathlib.Algebra.BigOperators.Group.List.Basic

namespace WarehouseSync
namespace Chunker

open Splitting

/-!
# Planning the chunks of a bootstrap (`extract/chunker.py`)

A plan is a list of chunks, each of which is copied with a predicate of its own
(`extract/copy_worker.py`).  The predicates are evaluated against rows, so that
a plan can be compared with the table it was made for: every row is selected by
exactly one chunk, whichever planner was used.
-/

universe u

/-- A part of a table that one worker copies: a range of ids, a day of the partition
column, or both, or everything.  A day is the number of the day instead of its ISO
text. -/
structure Chunk where
  schema : String
  table : String
  chunkId : Nat
  lo : Option Int
  hi : Option Int
  partCol : Option String
  day : Option Int
  partTz : Bool
  dayIsNull : Bool
deriving DecidableEq, Repr

def Chunk.fqn (chunk : Chunk) : String :=
  chunk.schema ++ "." ++ chunk.table

/-- The columns that plans and chunk predicates look at.  `id` is NULL-able and
numeric.  A partition column has microseconds, on the time line of UTC when it is
read as a timestamp with time zone and of its own wall clock otherwise.  The rows
themselves stay abstract, since planning depends on nothing else of them. -/
structure SourceColumns (ρ : Type u) where
  id : ρ -> Option Int
  timestamp : String -> Bool -> ρ -> Option Int

variable {ρ : Type u}

def microsPerDay : Int := 86400000000

/-- `_day_expr`: the calendar day of a partition column. -/
def SourceColumns.dayOf (columns : SourceColumns ρ) (partCol : String) (partTz : Bool) (row : ρ) :
    Option Int :=
  (columns.timestamp partCol partTz row).map (fun micros => micros / microsPerDay)

/-- A comparison that is not satisfied by NULL: in SQL it is unknown then, and a
WHERE clause keeps only what is true. -/
def satisfies (value : Option Int) (test : Int -> Bool) : Bool :=
  match value with
  | some number => test number
  | none => false

/-- The predicate on the partition column, if the chunk has one.  The day is
compared as a half-open range of microseconds, and the rows without a value have a
chunk of their own. -/
def Chunk.selectsDay (columns : SourceColumns ρ) (chunk : Chunk) (row : ρ) : Bool :=
  match chunk.partCol with
  | none => true
  | some partCol =>
      let micros := columns.timestamp partCol chunk.partTz row
      if chunk.dayIsNull then micros.isNone
      else
        match chunk.day with
        | some day => satisfies micros (fun value =>
            decide (day * microsPerDay ≤ value) && decide (value < (day + 1) * microsPerDay))
        | none => true

/-- The `WHERE` clause of the chunk's COPY statement.  A range of ids leaves out the
rows without an id, so that they must be in a chunk without a range. -/
def Chunk.selects (columns : SourceColumns ρ) (chunk : Chunk) (row : ρ) : Bool :=
  chunk.selectsDay columns row &&
    ((chunk.lo.all (fun lo => satisfies (columns.id row) (fun id => decide (lo ≤ id)))) &&
      (chunk.hi.all (fun hi => satisfies (columns.id row) (fun id => decide (id < hi)))))

/-- `max(1, count // target)` pieces, and `max(1, span // pieces)` for each.  Both
are at least one, so that the loop over the ranges goes forward whatever the
statistics say. -/
def stepFor (lo hi count target : Int) : Int :=
  max 1 ((hi - lo + 1).fdiv (max 1 (count.fdiv target)))

/-- Chunk ids count the chunks in the order in which they are planned. -/
def numbered (chunks : List Chunk) : List Chunk :=
  chunks.mapIdx (fun index chunk => { chunk with chunkId := index })

/-- `min(id)` and `max(id)`, which ignore NULLs: there are no bounds when no row has
an id. -/
def idBounds (columns : SourceColumns ρ) (rows : List ρ) : Option (Int × Int) :=
  match (rows.filterMap columns.id).min?, (rows.filterMap columns.id).max? with
  | some lo, some hi => some (lo, hi)
  | _, _ => none

def fullChunk (schema table : String) : Chunk :=
  { schema := schema, table := table, chunkId := 0, lo := none, hi := none, partCol := none
    day := none, partTz := false, dayIsNull := false }

/-- `plan_range_chunks`; `approxRows` is the planner statistic `reltuples`, which
may be anything.  A target of zero raises `ZeroDivisionError` unless there is
nothing to plan. -/
def planRangeChunks (columns : SourceColumns ρ) (schema table : String) (target approxRows : Int)
    (rows : List ρ) : Option (List Chunk) :=
  match idBounds columns rows with
  | none => some []
  | some (lo, hi) =>
      if target = 0 then none
      else some (numbered ((ranges lo hi (stepFor lo hi approxRows target)).map (fun range =>
        { fullChunk schema table with lo := some range.1, hi := some range.2 })))

/-- The groups of `GROUP BY day ORDER BY day`, with the NULL group last.  The days
are those of the rows, so that a day without rows has no chunk. -/
def dayGroups (columns : SourceColumns ρ) (partCol : String) (partTz : Bool) (rows : List ρ) :
    List (Option Int) :=
  let days := rows.map (columns.dayOf partCol partTz)
  ((days.filterMap (fun day => day)).dedup.insertionSort (· ≤ ·)).map some ++
    if none ∈ days then [none] else []

/-- The chunks of one group; no result is a division by a target of zero.  A group
without days is one chunk, since its rows cannot be told apart by the partition
column. -/
def groupChunks (columns : SourceColumns ρ) (schema table partCol : String) (partTz numericId : Bool)
    (target : Int) (rows : List ρ) (day : Option Int) : Option (List Chunk) :=
  let group := rows.filter (fun row => decide (columns.dayOf partCol partTz row = day))
  let whole : Chunk :=
    { fullChunk schema table with
      partCol := some partCol, day := day, partTz := partTz, dayIsNull := day.isNone }
  if numericId = false ∨ day = none then some [whole]
  else
    match idBounds columns group with
    | none => some []
    | some (lo, hi) =>
        if target = 0 then none
        else some ((ranges lo hi (stepFor lo hi group.length target)).map (fun range =>
          { whole with lo := some range.1, hi := some range.2 }))

/-- `plan_partitioned_chunks`: the chunks of each day in turn, numbered through.
The numbers go on from day to day, so that the keys of the chunks differ. -/
def planPartitionedChunks (columns : SourceColumns ρ) (schema table partCol : String)
    (partTz numericId : Bool) (target : Int) (rows : List ρ) : Option (List Chunk) := do
  let groups <- (dayGroups columns partCol partTz rows).mapM
    (groupChunks columns schema table partCol partTz numericId target rows)
  some (numbered groups.flatten)

def planFullChunk (schema table : String) : List Chunk :=
  [fullChunk schema table]

/-! ## Every row is in exactly one chunk -/

/-- The plan selects the row once.  This is what a full copy needs: a row in no
chunk is lost, and one in two chunks is copied twice. -/
def Covers (columns : SourceColumns ρ) (chunks : List Chunk) (row : ρ) : Prop :=
  chunks.countP (fun chunk => chunk.selects columns row) = 1

/-- Numbering changes nothing but the ids of the chunks. -/
theorem exists_of_mem_numbered {chunks : List Chunk} {chunk : Chunk} (member : chunk ∈ numbered chunks) :
    Exists fun original : Chunk => original ∈ chunks ∧
      Exists fun index : Nat => { original with chunkId := index } = chunk := by
  rcases List.mem_iff_getElem.mp member with ⟨index, inside, rfl⟩
  have original : index < chunks.length := by simpa [numbered] using inside
  refine ⟨chunks[index], List.getElem_mem original, index, ?_⟩
  simp [numbered]

theorem countP_numbered (columns : SourceColumns ρ) (chunks : List Chunk) (row : ρ) :
    (numbered chunks).countP (fun chunk => chunk.selects columns row) =
      chunks.countP (fun chunk => chunk.selects columns row) := by
  have forget (forgotten : List Chunk) : (forgotten.map (fun chunk => { chunk with chunkId := 0 })).countP
      (fun chunk => chunk.selects columns row) =
        forgotten.countP (fun chunk => chunk.selects columns row) := by
    rw [List.countP_map]
    rfl
  rw [← forget (numbered chunks), ← forget chunks]
  congr 1
  apply List.ext_getElem (by simp [numbered])
  intro index left right
  simp [numbered]

theorem covers_planFullChunk (columns : SourceColumns ρ) (schema table : String) (row : ρ) :
    Covers columns (planFullChunk schema table) row := by
  simp [Covers, planFullChunk, fullChunk, Chunk.selects, Chunk.selectsDay]

/-- The bounds of a table contain the id of each of its rows. -/
theorem idBounds_spec {columns : SourceColumns ρ} {rows : List ρ} {row : ρ} {id : Int}
    (member : row ∈ rows) (carries : columns.id row = some id) :
    Exists fun lo : Int => Exists fun hi : Int =>
      idBounds columns rows = some (lo, hi) ∧ lo ≤ id ∧ id ≤ hi := by
  have listed : id ∈ rows.filterMap columns.id := List.mem_filterMap.mpr ⟨row, member, carries⟩
  rcases Option.isSome_iff_exists.mp (List.isSome_min?_of_mem listed) with ⟨lo, least⟩
  rcases Option.isSome_iff_exists.mp (List.isSome_max?_of_mem listed) with ⟨hi, greatest⟩
  refine ⟨lo, hi, by simp only [idBounds, least, greatest], ?_, ?_⟩
  · exact (List.min?_eq_some_iff.mp least).2 id listed
  · exact (List.max?_eq_some_iff.mp greatest).2 id listed

/-- The pieces of an id range, all restricted to the same day, for a row that
has an id. -/
theorem countP_idPieces_known {columns : SourceColumns ρ} {whole : Chunk} {row : ρ} {id : Int}
    (carries : columns.id row = some id) (pieces : List (Int × Int)) :
    (pieces.map (fun range =>
        ({ whole with lo := some range.1, hi := some range.2 } : Chunk))).countP
      (fun chunk => chunk.selects columns row) =
        if whole.selectsDay columns row = true then pieces.countP (inRange id) else 0 := by
  rw [List.countP_map]
  by_cases selected : whole.selectsDay columns row = true
  · rw [if_pos selected]
    apply List.countP_congr
    intro range _
    have day : ({ whole with lo := some range.1, hi := some range.2 } : Chunk).selectsDay columns row =
        true := selected
    simp [Chunk.selects, day, satisfies, carries, inRange]
  · rw [if_neg selected, List.countP_eq_zero]
    intro range _ both
    exact selected (Bool.and_eq_true_iff.mp both).1

theorem countP_idPieces {columns : SourceColumns ρ} {whole : Chunk} {row : ρ} {id lo hi : Int}
    (carries : columns.id row = some id) (within : lo ≤ id ∧ id ≤ hi) (count target : Int) :
    ((ranges lo hi (stepFor lo hi count target)).map (fun range =>
        ({ whole with lo := some range.1, hi := some range.2 } : Chunk))).countP
      (fun chunk => chunk.selects columns row) =
        if whole.selectsDay columns row = true then 1 else 0 := by
  have once := @countP_ranges lo hi (stepFor lo hi count target) (le_max_left _ _) id
  rw [if_pos within] at once
  rw [countP_idPieces_known carries, once]

theorem covers_planRangeChunks {columns : SourceColumns ρ} {schema table : String}
    {target approxRows : Int} {rows : List ρ} {chunks : List Chunk} {row : ρ}
    (planned : planRangeChunks columns schema table target approxRows rows = some chunks)
    (member : row ∈ rows) (numeric : (columns.id row).isSome) : Covers columns chunks row := by
  rcases Option.isSome_iff_exists.mp numeric with ⟨id, carries⟩
  rcases idBounds_spec member carries with ⟨lo, hi, bounds, within⟩
  simp only [planRangeChunks, bounds] at planned
  by_cases zero : target = 0
  · rw [if_pos zero] at planned
    cases planned
  · rw [if_neg zero] at planned
    cases planned
    rw [Covers, countP_numbered, countP_idPieces carries within]
    rfl

/-- A row passes the day predicate of a group exactly if it belongs to it. -/
theorem selectsDay_iff {columns : SourceColumns ρ} {chunk : Chunk} {partCol : String} {row : ρ}
    (onColumn : chunk.partCol = some partCol) (null : chunk.dayIsNull = chunk.day.isNone) :
    chunk.selectsDay columns row = true ↔ columns.dayOf partCol chunk.partTz row = chunk.day := by
  have positive : 0 < microsPerDay := by decide
  simp only [Chunk.selectsDay, onColumn, null, SourceColumns.dayOf]
  cases day : chunk.day with
  | none => cases columns.timestamp partCol chunk.partTz row <;> simp
  | some number =>
      cases columns.timestamp partCol chunk.partTz row with
      | none => simp [satisfies]
      | some micros =>
          have next : (number + 1) * microsPerDay = number * microsPerDay + microsPerDay := by
            rw [add_mul, one_mul]
          have bounds := @Int.ediv_eq_iff_of_pos microsPerDay micros number positive
          simpa [satisfies, next] using bounds.symm

/-- The chunk of a whole group. -/
def dayChunk (schema table partCol : String) (partTz : Bool) (day : Option Int) : Chunk :=
  { fullChunk schema table with
    partCol := some partCol, day := day, partTz := partTz, dayIsNull := day.isNone }

theorem selectsDay_dayChunk {columns : SourceColumns ρ} {schema table partCol : String} {partTz : Bool}
    {day : Option Int} {row : ρ} :
    (dayChunk schema table partCol partTz day).selectsDay columns row = true ↔
      columns.dayOf partCol partTz row = day :=
  selectsDay_iff rfl rfl

theorem countP_dayChunk (columns : SourceColumns ρ) (schema table partCol : String) (partTz : Bool)
    (day : Option Int) (row : ρ) :
    [dayChunk schema table partCol partTz day].countP (fun chunk => chunk.selects columns row) =
      if columns.dayOf partCol partTz row = day then 1 else 0 := by
  have only : (dayChunk schema table partCol partTz day).selects columns row =
      (dayChunk schema table partCol partTz day).selectsDay columns row := by
    simp [Chunk.selects, dayChunk, fullChunk]
  rw [List.countP_singleton, only]
  simp only [selectsDay_dayChunk]

/-- A group is one chunk, or it is cut by the ids of its rows. -/
theorem groupChunks_cases {columns : SourceColumns ρ} {schema table partCol : String}
    {partTz numericId : Bool} {target : Int} {rows : List ρ} {day : Option Int} {chunks : List Chunk}
    (planned : groupChunks columns schema table partCol partTz numericId target rows day = some chunks) :
    ((numericId = false ∨ day = none) ∧ chunks = [dayChunk schema table partCol partTz day]) ∨
    (numericId = true ∧ day ≠ none ∧
      idBounds columns (rows.filter (fun row => decide (columns.dayOf partCol partTz row = day))) = none ∧
        chunks = []) ∨
    (numericId = true ∧ day ≠ none ∧ Exists fun lo => Exists fun hi => Exists fun count : Nat =>
      idBounds columns (rows.filter (fun row => decide (columns.dayOf partCol partTz row = day))) =
          some (lo, hi) ∧
        chunks = (ranges lo hi (stepFor lo hi count target)).map (fun range =>
          { dayChunk schema table partCol partTz day with lo := some range.1, hi := some range.2 })) := by
  simp only [groupChunks] at planned
  split at planned
  · rename_i single
    cases planned
    exact Or.inl ⟨single, rfl⟩
  · rename_i several
    rw [not_or, Bool.not_eq_false] at several
    split at planned
    · rename_i bounds
      cases planned
      exact Or.inr (Or.inl ⟨several.1, several.2, bounds, rfl⟩)
    · rename_i lo hi bounds
      split at planned
      · cases planned
      · cases planned
        exact Or.inr (Or.inr ⟨several.1, several.2, lo, hi, _, bounds, rfl⟩)

theorem countP_groupChunks {columns : SourceColumns ρ} {schema table partCol : String}
    {partTz numericId : Bool} {target : Int} {rows : List ρ} {row : ρ} (member : row ∈ rows)
    (numeric : numericId = true -> (columns.dayOf partCol partTz row).isSome -> (columns.id row).isSome)
    {day : Option Int} {chunks : List Chunk}
    (planned : groupChunks columns schema table partCol partTz numericId target rows day = some chunks) :
    chunks.countP (fun chunk => chunk.selects columns row) =
      if columns.dayOf partCol partTz row = day then 1 else 0 := by
  have within : numericId = true -> day ≠ none -> columns.dayOf partCol partTz row = day ->
      Exists fun id => columns.id row = some id ∧
        row ∈ rows.filter (fun row => decide (columns.dayOf partCol partTz row = day)) := by
    intro byId known inGroup
    have present := numeric byId (Option.isSome_iff_ne_none.mpr (inGroup ▸ known))
    rcases Option.isSome_iff_exists.mp present with ⟨id, carries⟩
    exact ⟨id, carries, List.mem_filter.mpr ⟨member, decide_eq_true inGroup⟩⟩
  rcases groupChunks_cases planned with ⟨_, rfl⟩ | ⟨byId, known, empty, rfl⟩ |
    ⟨byId, known, lo, hi, count, bounds, rfl⟩
  · exact countP_dayChunk columns schema table partCol partTz day row
  · rw [List.countP_nil, if_neg]
    intro inGroup
    rcases within byId known inGroup with ⟨id, carries, inside⟩
    rcases idBounds_spec inside carries with ⟨lo, hi, bounds, _⟩
    cases empty.symm.trans bounds
  · by_cases inGroup : columns.dayOf partCol partTz row = day
    · rcases within byId known inGroup with ⟨id, carries, inside⟩
      rcases idBounds_spec inside carries with ⟨least, greatest, same, between⟩
      cases bounds.symm.trans same
      rw [countP_idPieces carries between]
      simp only [selectsDay_dayChunk]
    · rw [if_neg inGroup, List.countP_eq_zero]
      intro chunk listed both
      rcases List.mem_map.mp listed with ⟨range, _, rfl⟩
      have dayPasses : (dayChunk schema table partCol partTz day).selectsDay columns row = true :=
        (Bool.and_eq_true_iff.mp both).1
      exact inGroup (selectsDay_dayChunk.mp dayPasses)

theorem mapM_cons_eq_some {α β : Type*} {plan : α -> Option β} {item : α} {items : List α}
    {results : List β} (planned : (item :: items).mapM plan = some results) :
    Exists fun first : β => Exists fun others : List β =>
      plan item = some first ∧ items.mapM plan = some others ∧ results = first :: others := by
  rw [List.mapM_cons] at planned
  rcases Option.bind_eq_some_iff.mp planned with ⟨first, now, rest⟩
  rcases Option.bind_eq_some_iff.mp rest with ⟨others, later, same⟩
  exact ⟨first, others, now, later, (Option.some.inj same).symm⟩

theorem exists_of_mem_mapM {α β : Type*} {plan : α -> Option β} {items : List α} {results : List β}
    (planned : items.mapM plan = some results) {result : β} (member : result ∈ results) :
    Exists fun item : α => plan item = some result := by
  induction items generalizing results with
  | nil =>
      cases planned
      cases member
  | cons item items ih =>
      rcases mapM_cons_eq_some planned with ⟨first, others, now, later, rfl⟩
      rcases List.mem_cons.mp member with rfl | listed
      · exact ⟨item, now⟩
      · exact ih later listed

/-- Groups that contribute one chunk for the row if they are its own and none
otherwise contribute as many as there are groups of its own. -/
theorem countP_flatten_groups {plan : Option Int -> Option (List Chunk)} {selects : Chunk -> Bool}
    {own : Option Int}
    (each : forall day chunks, plan day = some chunks ->
      chunks.countP selects = if own = day then 1 else 0)
    {days : List (Option Int)} {groups : List (List Chunk)} (planned : days.mapM plan = some groups) :
    groups.flatten.countP selects = days.count own := by
  induction days generalizing groups with
  | nil =>
      cases planned
      rfl
  | cons day days ih =>
      rcases mapM_cons_eq_some planned with ⟨chunks, others, first, later, rfl⟩
      rw [List.flatten_cons, List.countP_append, each day chunks first, ih later, List.count_cons]
      by_cases same : own = day
      · simp [same, Nat.add_comm]
      · simp [same, Ne.symm same]

theorem nodup_dayGroups (columns : SourceColumns ρ) (partCol : String) (partTz : Bool) (rows : List ρ) :
    (dayGroups columns partCol partTz rows).Nodup := by
  have known : ((((rows.map (columns.dayOf partCol partTz)).filterMap (fun day => day)).dedup.insertionSort
      (· ≤ ·)).map some).Nodup :=
    ((List.perm_insertionSort _ _).nodup_iff.mpr (List.nodup_dedup _)).map (Option.some_injective _)
  unfold dayGroups
  refine List.nodup_append.mpr ⟨known, ?_, ?_⟩
  · split
    · exact List.nodup_singleton none
    · exact List.nodup_nil
  · rintro day listed other null same
    rcases List.mem_map.mp listed with ⟨number, _, rfl⟩
    split at null
    · rw [List.mem_singleton.mp null] at same
      cases same
    · cases null

theorem mem_dayGroups {columns : SourceColumns ρ} {partCol : String} {partTz : Bool} {rows : List ρ}
    {row : ρ} (member : row ∈ rows) :
    columns.dayOf partCol partTz row ∈ dayGroups columns partCol partTz rows := by
  have listed : columns.dayOf partCol partTz row ∈ rows.map (columns.dayOf partCol partTz) :=
    List.mem_map.mpr ⟨row, member, rfl⟩
  unfold dayGroups
  rw [List.mem_append]
  cases own : columns.dayOf partCol partTz row with
  | none =>
      rw [own] at listed
      rw [if_pos listed]
      exact Or.inr (List.mem_singleton.mpr rfl)
  | some day =>
      rw [own] at listed
      have present : day ∈ (rows.map (columns.dayOf partCol partTz)).filterMap (fun day => day) :=
        List.mem_filterMap.mpr ⟨some day, listed, rfl⟩
      exact Or.inl (List.mem_map.mpr
        ⟨day, (List.mem_insertionSort _).mpr (List.mem_dedup.mpr present), rfl⟩)

theorem covers_planPartitionedChunks {columns : SourceColumns ρ} {schema table partCol : String}
    {partTz numericId : Bool} {target : Int} {rows : List ρ} {chunks : List Chunk} {row : ρ}
    (planned : planPartitionedChunks columns schema table partCol partTz numericId target rows =
      some chunks)
    (member : row ∈ rows)
    (numeric : numericId = true -> (columns.dayOf partCol partTz row).isSome -> (columns.id row).isSome) :
    Covers columns chunks row := by
  rcases Option.bind_eq_some_iff.mp planned with ⟨groups, grouped, ⟨⟩⟩
  rw [Covers, countP_numbered]
  rw [countP_flatten_groups (fun day chunks => countP_groupChunks member numeric) grouped]
  exact List.count_eq_one_of_mem (nodup_dayGroups columns partCol partTz rows) (mem_dayGroups member)

end Chunker
end WarehouseSync

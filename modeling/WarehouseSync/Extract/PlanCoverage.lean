import WarehouseSync.Extract.Chunker

namespace WarehouseSync
namespace Chunker

open Splitting

/-!
# Which rows a plan covers

Every planner covers every row whose id it does not need or knows.  A row with
NULL in the id column is left out by id ranges: no comparison selects it, and
unlike for the partition column there is no chunk for the NULLs.
-/

universe u

variable {ρ : Type u}

/-- The three planners with what they are told apart from the table.  The planner
statistic is only an estimate, and nothing is assumed about it. -/
inductive Planner where
  | range (approxRows : Int)
  | partitioned (partCol : String) (partTz numericId : Bool)
  | full
deriving DecidableEq, Repr

/-- The plan that a planner makes.  All three get the same table, so that what one
of them covers can be said of all at once. -/
def Planner.plan (columns : SourceColumns ρ) (schema table : String) (rowsPerChunk : Int) (rows : List ρ) :
    Planner -> Option (List Chunk)
  | .range approxRows => planRangeChunks columns schema table rowsPerChunk approxRows rows
  | .partitioned partCol partTz numericId =>
      planPartitionedChunks columns schema table partCol partTz numericId rowsPerChunk rows
  | .full => some (planFullChunk schema table)

/-- The planner selects the row by ranges of its id.  A row without an id is then in
no range, while the other planners do not look at ids. -/
def Planner.needsId (columns : SourceColumns ρ) (row : ρ) : Planner -> Bool
  | .range _ => true
  | .partitioned partCol partTz numericId => numericId && (columns.dayOf partCol partTz row).isSome
  | .full => false

variable {columns : SourceColumns ρ} {schema table : String} {rowsPerChunk : Int} {rows : List ρ}

theorem groupChunks_isSome (partCol : String) (partTz numericId : Bool) (rows : List ρ)
    (positive : 0 < rowsPerChunk) (day : Option Int) :
    (groupChunks columns schema table partCol partTz numericId rowsPerChunk rows day).isSome := by
  have nonzero : rowsPerChunk ≠ 0 := by omega
  unfold groupChunks
  simp only [if_neg nonzero]
  split
  · rfl
  · split
    · rfl
    · rfl

theorem mapM_isSome {α β : Type*} {plan : α -> Option β} (each : forall item, (plan item).isSome)
    (items : List α) : (items.mapM plan).isSome := by
  induction items with
  | nil => rfl
  | cons item items ih =>
      rcases Option.isSome_iff_exists.mp (each item) with ⟨first, planned⟩
      rcases Option.isSome_iff_exists.mp ih with ⟨others, listed⟩
      simp [List.mapM_cons, planned, listed]

/-- No table makes a planner raise when the chunks have a size. -/
theorem plan_isSome (positive : 0 < rowsPerChunk) (planner : Planner) :
    (planner.plan columns schema table rowsPerChunk rows).isSome := by
  cases planner with
  | range approxRows =>
      have nonzero : rowsPerChunk ≠ 0 := by omega
      unfold Planner.plan planRangeChunks
      simp only [if_neg nonzero]
      split
      · rfl
      · rfl
  | partitioned partCol partTz numericId =>
      have each : forall day,
          (groupChunks columns schema table partCol partTz numericId rowsPerChunk rows day).isSome :=
        groupChunks_isSome partCol partTz numericId rows positive
      have planned := mapM_isSome each (dayGroups columns partCol partTz rows)
      rcases Option.isSome_iff_exists.mp planned with ⟨groups, listed⟩
      unfold Planner.plan planPartitionedChunks
      simp [listed]
  | full => rfl

/-- A chunk with a lower bound selects no row with a NULL id. -/
theorem selects_missing {chunk : Chunk} {row : ρ} {lo : Int} (bounded : chunk.lo = some lo)
    (missing : columns.id row = none) : chunk.selects columns row = false := by
  unfold Chunk.selects
  rw [bounded, missing]
  simp [satisfies]

theorem groupChunks_missing {partCol : String} {partTz : Bool} {day : Option Int} {chunks : List Chunk}
    {row : ρ} (planned : groupChunks columns schema table partCol partTz true rowsPerChunk rows day = some chunks)
    (known : (columns.dayOf partCol partTz row).isSome) (missing : columns.id row = none) {chunk : Chunk}
    (listed : chunk ∈ chunks) : chunk.selects columns row = false := by
  rcases groupChunks_cases planned with ⟨single, rfl⟩ | ⟨_, _, _, rfl⟩ | ⟨_, _, lo, hi, count, _, rfl⟩
  · have null : day = none := single.resolve_left (by decide)
    have otherDay : ¬ columns.dayOf partCol partTz row = day := by
      rw [null]
      exact Option.isSome_iff_ne_none.mp known
    have none := countP_dayChunk columns schema table partCol partTz day row
    rw [if_neg otherDay, List.countP_eq_zero] at none
    exact Bool.eq_false_iff.mpr (none chunk listed)
  · cases listed
  · rcases List.mem_map.mp listed with ⟨range, _, rfl⟩
    exact selects_missing rfl missing

/-- A row whose id is needed and NULL is in no chunk. -/
theorem uncovered_of_missing {planner : Planner} {chunks : List Chunk} {row : ρ}
    (planned : planner.plan columns schema table rowsPerChunk rows = some chunks)
    (needed : planner.needsId columns row = true) (missing : columns.id row = none) :
    chunks.countP (fun chunk => chunk.selects columns row) = 0 := by
  cases planner with
  | range approxRows =>
      simp only [Planner.plan, planRangeChunks] at planned
      split at planned
      · cases planned
        rfl
      · split at planned
        · cases planned
        · cases planned
          rw [countP_numbered, List.countP_eq_zero]
          intro chunk listed
          rcases List.mem_map.mp listed with ⟨range, _, rfl⟩
          rw [selects_missing rfl missing]
          exact Bool.false_ne_true
  | partitioned partCol partTz numericId =>
      rcases Bool.and_eq_true_iff.mp needed with ⟨rfl, known⟩
      rcases Option.bind_eq_some_iff.mp planned with ⟨groups, grouped, ⟨⟩⟩
      rw [countP_numbered, List.countP_eq_zero]
      intro chunk listed
      rcases List.mem_flatten.mp listed with ⟨group, present, inGroup⟩
      rcases exists_of_mem_mapM grouped present with ⟨day, made⟩
      rw [groupChunks_missing made known missing inGroup]
      exact Bool.false_ne_true
  | full => cases needed

/-! ## No row is in two chunks -/

/-- The pieces of an id range select a row at most once, wherever the row is. -/
theorem countP_idPieces_le (columns : SourceColumns ρ) (whole : Chunk) (row : ρ)
    (lo hi count target : Int) :
    ((ranges lo hi (stepFor lo hi count target)).map (fun range =>
        ({ whole with lo := some range.1, hi := some range.2 } : Chunk))).countP
      (fun chunk => chunk.selects columns row) ≤
        if whole.selectsDay columns row = true then 1 else 0 := by
  cases carries : columns.id row with
  | none =>
      rw [List.countP_eq_zero.mpr]
      · exact Nat.zero_le _
      · intro chunk listed
        rcases List.mem_map.mp listed with ⟨range, _, rfl⟩
        rw [selects_missing rfl carries]
        exact Bool.false_ne_true
  | some id =>
      have once := @countP_ranges lo hi (stepFor lo hi count target) (le_max_left _ _) id
      rw [countP_idPieces_known carries, once]
      split
      · split
        · exact Nat.le_refl 1
        · exact Nat.zero_le 1
      · exact Nat.le_refl 0

theorem countP_groupChunks_le {partCol : String} {partTz numericId : Bool} {day : Option Int}
    {chunks : List Chunk}
    (planned : groupChunks columns schema table partCol partTz numericId rowsPerChunk rows day =
      some chunks) (row : ρ) :
    chunks.countP (fun chunk => chunk.selects columns row) ≤
      if columns.dayOf partCol partTz row = day then 1 else 0 := by
  rcases groupChunks_cases planned with ⟨_, rfl⟩ | ⟨_, _, _, rfl⟩ | ⟨_, _, lo, hi, count, _, rfl⟩
  · exact le_of_eq (countP_dayChunk columns schema table partCol partTz day row)
  · exact Nat.zero_le _
  · have pieces := countP_idPieces_le columns (dayChunk schema table partCol partTz day) row
    simp only [selectsDay_dayChunk] at pieces
    exact pieces _ _ _ _

theorem countP_flatten_groups_le {plan : Option Int -> Option (List Chunk)} {selects : Chunk -> Bool}
    {own : Option Int}
    (each : forall day chunks, plan day = some chunks ->
      chunks.countP selects ≤ if own = day then 1 else 0)
    {days : List (Option Int)} {groups : List (List Chunk)} (planned : days.mapM plan = some groups) :
    groups.flatten.countP selects ≤ days.count own := by
  induction days generalizing groups with
  | nil =>
      cases planned
      exact Nat.le_refl 0
  | cons day days ih =>
      rcases mapM_cons_eq_some planned with ⟨chunks, others, first, later, rfl⟩
      have here := each day chunks first
      have there := ih later
      rw [List.flatten_cons, List.countP_append, List.count_cons]
      simp only [beq_iff_eq, eq_comm (a := day)]
      omega

/-- A plan selects no row twice, also a row that was not there when it was made. -/
theorem plan_selects_le_one {planner : Planner} {chunks : List Chunk}
    (planned : planner.plan columns schema table rowsPerChunk rows = some chunks) (row : ρ) :
    chunks.countP (fun chunk => chunk.selects columns row) ≤ 1 := by
  cases planner with
  | range approxRows =>
      simp only [Planner.plan, planRangeChunks] at planned
      split at planned
      · cases planned
        exact Nat.zero_le 1
      · split at planned
        · cases planned
        · cases planned
          rw [countP_numbered]
          exact countP_idPieces_le columns (fullChunk schema table) row _ _ _ _
  | partitioned partCol partTz numericId =>
      rcases Option.bind_eq_some_iff.mp planned with ⟨groups, grouped, ⟨⟩⟩
      rw [countP_numbered]
      apply Nat.le_trans (countP_flatten_groups_le (fun day chunks made => countP_groupChunks_le made row)
        grouped)
      exact List.nodup_iff_count_le_one.mp (nodup_dayGroups columns partCol partTz rows) _
  | full =>
      cases planned
      exact List.countP_le_length

theorem covers_of_known {planner : Planner} {chunks : List Chunk} {row : ρ} (member : row ∈ rows)
    (planned : planner.plan columns schema table rowsPerChunk rows = some chunks)
    (known : planner.needsId columns row = true -> (columns.id row).isSome) : Covers columns chunks row := by
  cases planner with
  | range approxRows => exact covers_planRangeChunks planned member (known rfl)
  | partitioned partCol partTz numericId =>
      apply covers_planPartitionedChunks planned member
      intro numeric dated
      exact known (Bool.and_eq_true_iff.mpr ⟨numeric, dated⟩)
  | full =>
      cases planned
      exact covers_planFullChunk columns schema table row

/-- There is a plan for every table, and it selects every row exactly once if and
only if no row has a NULL id that the planner needs.  This is the only way to lose a
row: no range and no day is left out, and none is planned twice. -/
theorem plan_covers_iff (columns : SourceColumns ρ) (schema table : String) (rowsPerChunk : Int)
    (rows : List ρ) (planner : Planner) (positive : 0 < rowsPerChunk) :
    Exists fun chunks : List Chunk =>
      planner.plan columns schema table rowsPerChunk rows = some chunks ∧
        ((forall row, row ∈ rows -> Covers columns chunks row) ↔
          forall row, row ∈ rows -> planner.needsId columns row = true -> (columns.id row).isSome) := by
  have exists_plan : (planner.plan columns schema table rowsPerChunk rows).isSome := plan_isSome positive planner
  rcases Option.isSome_iff_exists.mp exists_plan with ⟨chunks, planned⟩
  refine ⟨chunks, planned, ?_⟩
  constructor
  · intro covered row member needed
    cases missing : columns.id row with
    | some id => rfl
    | none =>
        have once := covered row member
        have never := uncovered_of_missing planned needed missing
        unfold Covers at once
        omega
  · intro known row member
    exact covers_of_known member planned (known row member)

/-- Rows are pairs of an id and a time; the one column of the table that is
read as a timestamp is any of them. -/
def pairColumns : SourceColumns (Option Int × Option Int) :=
  { id := fun row => row.1, timestamp := fun _ _ row => row.2 }

theorem known_ids_are_covered : Exists fun chunks : List Chunk =>
    (Planner.range 2).plan pairColumns "public" "events" 1 [(some 1, none), (some 7, some 5)] = some chunks ∧
      ((forall row, row ∈ [(some 1, none), (some 7, some 5)] -> Covers pairColumns chunks row) ↔
        forall row, row ∈ [(some 1, none), (some 7, some 5)] ->
          (Planner.range 2).needsId pairColumns row = true -> (pairColumns.id row).isSome) :=
  plan_covers_iff pairColumns "public" "events" 1 [(some 1, none), (some 7, some 5)] (.range 2) (by decide)

/-- The row without an id is in no chunk of either planner that uses ids. -/
theorem null_id_is_left_out :
    ((Planner.range 2).plan pairColumns "public" "events" 1 [(some 1, some 5), (none, some 5)]).map
      (fun chunks => chunks.map (fun chunk => chunk.selects pairColumns (none, some 5))) =
        some [false] ∧
    ((Planner.partitioned "created_at" false true).plan pairColumns "public" "events" 1
        [(some 1, some 5), (none, some 5)]).map
      (fun chunks => chunks.map (fun chunk => chunk.selects pairColumns (none, some 5))) =
        some [false] := by
  decide

end Chunker
end WarehouseSync

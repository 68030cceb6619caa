import Mathlib.Data.List.Infix
import WarehouseSync.Orchestration.ChunkAttempts
import WarehouseSync.Orchestration.Tables
import WarehouseSync.Library.KeyedRows

namespace WarehouseSync
namespace BootstrapJob

open Chunker Chunks CopyWorker IcebergWriter Schema Tables

/-!
# Bootstrapping one table (`orchestration/bootstrap_job.py`)

A run plans its chunks, and then the op of every chunk is attempted until it
returns.  The ops of one run work concurrently, but on different keys of the
chunk state and by appending to the lake, so they are executed in the order of
the plan here.  The summary in `commit_chunks` does not touch the lake.

Every row is in exactly one chunk of a plan.  What a run does not do is start
from an empty table: chunk state and object keys are scoped to the run, and the
table of an earlier run is kept whenever its partition spec still fits.
-/

universe u v

variable {ρ : Type u} {κ : Type v}

/-- The source table and what the planner asks the database about it.  The estimate
of the number of rows comes from the statistics and need not be right. -/
structure Source (ρ : Type u) where
  columns : List Column
  accessors : SourceColumns ρ
  rows : List ρ
  hasLeadingIndex : Bool
  approxRows : Int

/-- The table to bootstrap, its connection and the settings.  `filesFit` says
whether `add_files` takes files written with the Arrow schema of the source into
the lake table; for a uuid column it does not, and such a run does not complete
unless the source is empty. -/
structure Bootstrap (ρ : Type u) where
  connectionId : Int
  lakeBucket : String
  rawPrefix : String
  cfg : TableConfig
  settings : Settings
  unionApplies : Bool
  dropRemoved : Bool
  filesFit : Bool
  source : Source ρ

/-- One run: its id, and for every chunk id the attempts that fail and the one that
is expected to return.  Dagster gives every run its own id and retries an op within
the run. -/
structure Run where
  runId : String
  failed : Nat -> List Fate
  last : Nat -> Fate

/-- A partition column is read as a timestamp with time zone if its type says so.
Otherwise its days are those of the values as they are, without a zone. -/
def isZoned (columns : List Column) (name : String) : Bool :=
  match columns.find? (fun column => column.name == name) with
  | some column => decide ("with time zone".toList <:+: (lower column.pgType).toList)
  | none => false

/-- The choice of the planner in `plan_bootstrap`.  A partition by day comes first,
ranges of ids need an integer id with an index, and everything else is one chunk. -/
def planChunks (cfg : TableConfig) (settings : Settings) (source : Source ρ) : Option (List Chunk) :=
  let numericId := cfg.supportsParallelChunking && source.hasLeadingIndex
  match cfg.partitionBy.find? (fun entry => entry.transform == "day") with
  | some dayPart =>
      planPartitionedChunks source.accessors cfg.schema cfg.table dayPart.column
        (isZoned source.columns dayPart.column) numericId settings.extractRowsPerChunk source.rows
  | none =>
      if numericId = true then
        planRangeChunks source.accessors cfg.schema cfg.table settings.extractRowsPerChunk
          source.approxRows source.rows
      else some (planFullChunk cfg.schema cfg.table)

namespace Bootstrap

def sourceNames (boot : Bootstrap ρ) : List String :=
  boot.source.columns.map (fun column => column.name)

def plan (boot : Bootstrap ρ) : Option (List Chunk) :=
  planChunks boot.cfg boot.settings boot.source

/-- `plan_bootstrap`: the world with the table in place, and the chunks that are not
recorded as done in this run.  The table is created and evolved before the chunks
are planned. -/
def planBootstrap (boot : Bootstrap ρ) (runId : String) (world : World ρ) :
    Option (World ρ × List Chunk) :=
  let created := createOrGetTable boot.sourceNames boot.cfg.partitionBy none world.catalog
  match created.error, created.catalog with
  | none, some table =>
      boot.plan.map (fun chunks =>
        ({ world with catalog := some (evolveTableSchema boot.sourceNames boot.cfg.protectedColumns
            boot.unionApplies boot.dropRemoved table) },
          chunks.filter (fun chunk =>
            decide (chunkKey chunk.fqn chunk.chunkId ∉ listDone runId world.chunkState))))
  | _, _ => none

/-- The payload of a chunk, with the result that copying it gives.  The object keys
have the run id in them, so two runs never write the same object, while two attempts
of a run do. -/
def job (boot : Bootstrap ρ) (runId : String) (chunk : Chunk) : ChunkJob ρ :=
  { runId := runId
    key := chunkKey chunk.fqn chunk.chunkId
    connectionId := boot.connectionId
    icebergTableName := boot.cfg.icebergTableName
    tableFqn := chunk.fqn
    extracted := extractChunkToS3 boot.source.accessors boot.settings boot.lakeBucket boot.rawPrefix
      ("bootstrap/" ++ chunk.fqn ++ "/run_id=" ++ runId) chunk boot.source.rows
    compatible := boot.filesFit }

/-- All attempts at one chunk.  There is no world for a chunk whose last attempt
does not return, since the run does not complete then. -/
def runChunk (boot : Bootstrap ρ) (run : Run) (chunk : Chunk) (world : World ρ) : Option (World ρ) :=
  (retries (boot.job run.runId chunk) world (run.failed chunk.chunkId)).bind (fun middle =>
    let attempt := extractChunkOp (boot.job run.runId chunk) (run.last chunk.chunkId) middle
    if attempt.2.isReturned = true then some attempt.1 else none)

def runChunks (boot : Bootstrap ρ) (run : Run) : List Chunk -> World ρ -> Option (World ρ)
  | [], world => some world
  | chunk :: chunks, world => (boot.runChunk run chunk world).bind (boot.runChunks run chunks)

/-- `bootstrap_table_job`; there is no result unless the run completes. -/
def bootstrapTableJob (boot : Bootstrap ρ) (run : Run) (world : World ρ) : Option (World ρ) :=
  (boot.planBootstrap run.runId world).bind (fun planned => boot.runChunks run planned.2 planned.1)

/-- Runs one after the other.  Nothing empties the lake table between them: a
bootstrap adds its files to what is there, unless the partition spec has changed. -/
def bootstrapRuns (boot : Bootstrap ρ) : List Run -> World ρ -> Option (World ρ)
  | [], world => some world
  | run :: runs, world => (boot.bootstrapTableJob run world).bind (boot.bootstrapRuns runs)

end Bootstrap

/-- Every source row has a numeric id if the table is chunked by id.  A range of ids
would leave out a row without one. -/
def NumericIds (boot : Bootstrap ρ) : Prop :=
  boot.cfg.supportsParallelChunking = true ->
    forall row, row ∈ boot.source.rows -> (boot.source.accessors.id row).isSome

theorem covers_plan {boot : Bootstrap ρ} (numeric : NumericIds boot) {chunks : List Chunk}
    (planned : boot.plan = some chunks) {row : ρ} (member : row ∈ boot.source.rows) :
    Covers boot.source.accessors chunks row := by
  rw [Bootstrap.plan, planChunks] at planned
  have carries (numericId : (boot.cfg.supportsParallelChunking && boot.source.hasLeadingIndex) = true) :
      (boot.source.accessors.id row).isSome :=
    numeric (Bool.and_eq_true_iff.mp numericId).1 row member
  cases dayPart : boot.cfg.partitionBy.find? (fun entry => entry.transform == "day") with
  | some entry =>
      rw [dayPart] at planned
      exact covers_planPartitionedChunks planned member (fun numeric _ => carries numeric)
  | none =>
      rw [dayPart] at planned
      by_cases numericId : (boot.cfg.supportsParallelChunking && boot.source.hasLeadingIndex) = true
      · simp only [if_pos numericId] at planned
        exact covers_planRangeChunks planned member (carries numericId)
      · simp only [if_neg numericId, Option.some.injEq] at planned
        rw [← planned]
        exact covers_planFullChunk _ _ _ row

/-- The chunks of a plan are chunks of one table with different ids.  So their keys
in the chunk state differ, and marking one done says nothing about another. -/
def Distinct (fqn : String) (chunks : List Chunk) : Prop :=
  (forall chunk, chunk ∈ chunks -> chunk.fqn = fqn) ∧ (chunks.map (fun chunk => chunk.chunkId)).Nodup

theorem nodup_numbered (chunks : List Chunk) :
    ((numbered chunks).map (fun chunk => chunk.chunkId)).Nodup := by
  have ids : (numbered chunks).map (fun chunk => chunk.chunkId) = List.range chunks.length := by
    apply List.ext_getElem (by simp [numbered])
    intro index left right
    simp [numbered]
  rw [ids]
  exact List.nodup_range

theorem fqn_numbered {fqn : String} {chunks : List Chunk}
    (all : forall chunk, chunk ∈ chunks -> chunk.fqn = fqn) :
    forall chunk, chunk ∈ numbered chunks -> chunk.fqn = fqn := by
  intro chunk member
  rcases exists_of_mem_numbered member with ⟨original, listed, index, rfl⟩
  exact all original listed

theorem fqn_groupChunks {accessors : SourceColumns ρ} {schema table partCol : String}
    {partTz numericId : Bool} {target : Int} {rows : List ρ} {day : Option Int} {chunks : List Chunk}
    (planned : groupChunks accessors schema table partCol partTz numericId target rows day = some chunks) :
    forall chunk, chunk ∈ chunks -> chunk.fqn = schema ++ "." ++ table := by
  intro chunk member
  rcases groupChunks_cases planned with ⟨_, rfl⟩ | ⟨_, _, _, rfl⟩ | ⟨_, _, lo, hi, count, _, rfl⟩
  · rw [List.mem_singleton.mp member]
    rfl
  · cases member
  · rcases List.mem_map.mp member with ⟨range, _, rfl⟩
    rfl

theorem distinct_planPartitionedChunks {accessors : SourceColumns ρ} {schema table partCol : String}
    {partTz numericId : Bool} {target : Int} {rows : List ρ} {chunks : List Chunk}
    (planned : planPartitionedChunks accessors schema table partCol partTz numericId target rows =
      some chunks) : Distinct (schema ++ "." ++ table) chunks := by
  rcases Option.bind_eq_some_iff.mp planned with ⟨groups, grouped, ⟨⟩⟩
  refine ⟨fqn_numbered (fun chunk member => ?_), nodup_numbered _⟩
  rcases List.mem_flatten.mp member with ⟨group, listed, here⟩
  rcases exists_of_mem_mapM grouped listed with ⟨day, made⟩
  exact fqn_groupChunks made chunk here

theorem distinct_planRangeChunks {accessors : SourceColumns ρ} {schema table : String}
    {target approxRows : Int} {rows : List ρ} {chunks : List Chunk}
    (planned : planRangeChunks accessors schema table target approxRows rows = some chunks) :
    Distinct (schema ++ "." ++ table) chunks := by
  rw [planRangeChunks] at planned
  split at planned
  · cases planned
    exact ⟨List.forall_mem_nil _, List.nodup_nil⟩
  · by_cases zero : target = 0
    · simp only [if_pos zero] at planned
      cases planned
    · simp only [if_neg zero, Option.some.injEq] at planned
      rw [← planned]
      refine ⟨fqn_numbered (fun chunk member => ?_), nodup_numbered _⟩
      rcases List.mem_map.mp member with ⟨range, _, rfl⟩
      rfl

theorem distinct_plan {boot : Bootstrap ρ} {chunks : List Chunk} (planned : boot.plan = some chunks) :
    Distinct boot.cfg.fqn chunks := by
  rw [Bootstrap.plan, planChunks] at planned
  cases dayPart : boot.cfg.partitionBy.find? (fun entry => entry.transform == "day") with
  | some entry =>
      rw [dayPart] at planned
      exact distinct_planPartitionedChunks planned
  | none =>
      rw [dayPart] at planned
      by_cases numericId : (boot.cfg.supportsParallelChunking && boot.source.hasLeadingIndex) = true
      · simp only [if_pos numericId] at planned
        exact distinct_planRangeChunks planned
      · simp only [if_neg numericId, Option.some.injEq] at planned
        rw [← planned]
        refine ⟨fun chunk member => ?_, List.nodup_singleton _⟩
        rw [List.mem_singleton.mp member]
        rfl

/-! ## What one run adds -/

/-- The rows of a chunk's files are the rows it selects. -/
theorem rows_job (boot : Bootstrap ρ) (runId : String) (chunk : Chunk) :
    (boot.job runId chunk).rows =
      boot.source.rows.filter (chunk.selects boot.source.accessors) :=
  fileRows_extractChunkToS3 _ _ _ _ _ _ _

theorem runChunk_eq_some {boot : Bootstrap ρ} {run : Run} {chunk : Chunk} {world after : World ρ}
    (ran : boot.runChunk run chunk world = some after) :
    Exists fun middle : World ρ =>
      retries (boot.job run.runId chunk) world (run.failed chunk.chunkId) = some middle ∧
      (extractChunkOp (boot.job run.runId chunk) (run.last chunk.chunkId) middle).2.isReturned = true ∧
      after = (extractChunkOp (boot.job run.runId chunk) (run.last chunk.chunkId) middle).1 := by
  rcases Option.bind_eq_some_iff.mp ran with ⟨middle, retried, returned⟩
  by_cases last : (extractChunkOp (boot.job run.runId chunk) (run.last chunk.chunkId)
      middle).2.isReturned = true
  · simp only [if_pos last, Option.some.injEq] at returned
    exact ⟨middle, retried, last, returned.symm⟩
  · simp only [if_neg last] at returned
    cases returned

/-- One chunk appends its rows to the table once, and touches no other key of
the chunk state. -/
theorem runChunk_spec {boot : Bootstrap ρ} {run : Run} {chunk : Chunk} {world after : World ρ}
    {table : LakeTable ρ} (present : world.catalog = some table)
    (fresh : ¬ (boot.job run.runId chunk).isDone world)
    (ran : boot.runChunk run chunk world = some after) :
    SameElsewhere (boot.job run.runId chunk) world after ∧
    Exists fun final : LakeTable ρ => after.catalog = some final ∧ final.spec = table.spec ∧
      final.rows = table.rows ++ boot.source.rows.filter (chunk.selects boot.source.accessors) := by
  rcases runChunk_eq_some ran with ⟨middle, retried, returned, rfl⟩
  rcases committed_of_returned present fresh retried returned with ⟨final, reached, rows, spec⟩
  rw [rows_job] at rows
  exact ⟨(sameElsewhere_retries retried).trans (sameElsewhere_extractChunkOp _ _ _), final, reached, spec, rows⟩

theorem Distinct.tail {fqn : String} {chunk : Chunk} {chunks : List Chunk}
    (distinct : Distinct fqn (chunk :: chunks)) : Distinct fqn chunks :=
  ⟨fun other member => distinct.1 other (List.mem_cons_of_mem _ member), (List.nodup_cons.mp distinct.2).2⟩

/-- Running a chunk does not mark any other chunk of the plan. -/
theorem stillFresh_of_sameElsewhere {boot : Bootstrap ρ} {runId fqn : String} {chunk : Chunk}
    {chunks : List Chunk} (distinct : Distinct fqn (chunk :: chunks)) {world after : World ρ}
    (elsewhere : SameElsewhere (boot.job runId chunk) world after) {other : Chunk} (member : other ∈ chunks)
    (fresh : ¬ (boot.job runId other).isDone world) : ¬ (boot.job runId other).isDone after := by
  have different : ¬ ((boot.job runId chunk).runId = runId ∧
      (boot.job runId chunk).key = (boot.job runId other).key) := by
    rintro ⟨_, sameKey⟩
    have keys : chunkKey chunk.fqn chunk.chunkId = chunkKey other.fqn other.chunkId := sameKey
    rw [distinct.1 chunk List.mem_cons_self, distinct.tail.1 other member] at keys
    exact (List.nodup_cons.mp distinct.2).1
      (List.mem_map.mpr ⟨other, member, (chunkKey_injective keys).symm⟩)
  exact fun done => fresh ((elsewhere runId (boot.job runId other).key different).mp done)

section Counting

variable [DecidableEq ρ]

/-- The rows that a chunk selects hold a row of the source once, if it is one of
them. -/
theorem count_selected {boot : Bootstrap ρ} {row : ρ} (once : boot.source.rows.count row = 1) (chunk : Chunk) :
    (boot.source.rows.filter (chunk.selects boot.source.accessors)).count row =
      if chunk.selects boot.source.accessors row = true then 1 else 0 := by
  by_cases selected : chunk.selects boot.source.accessors row = true
  · rw [if_pos selected, List.count_filter selected, once]
  · rw [if_neg selected]
    exact List.count_eq_zero_of_not_mem (fun member => selected (List.of_mem_filter member))

/-- The chunks of a run add a row as often as there are chunks that select it. -/
theorem runChunks_spec {boot : Bootstrap ρ} {run : Run} {fqn : String} {row : ρ}
    (once : boot.source.rows.count row = 1) {chunks : List Chunk} (distinct : Distinct fqn chunks)
    {world after : World ρ} {table : LakeTable ρ} (present : world.catalog = some table)
    (fresh : forall chunk, chunk ∈ chunks -> ¬ (boot.job run.runId chunk).isDone world)
    (ran : boot.runChunks run chunks world = some after) :
    (forall runId key, runId ≠ run.runId ->
      (key ∈ listDone runId after.chunkState ↔ key ∈ listDone runId world.chunkState)) ∧
    Exists fun final : LakeTable ρ => after.catalog = some final ∧ final.spec = table.spec ∧
      final.rows.count row = table.rows.count row +
        chunks.countP (fun chunk => chunk.selects boot.source.accessors row) := by
  induction chunks generalizing world table with
  | nil =>
      cases ran
      exact ⟨fun _ _ _ => Iff.rfl, table, present, rfl, rfl⟩
  | cons chunk chunks ih =>
      rcases Option.bind_eq_some_iff.mp ran with ⟨next, first, rest⟩
      rcases runChunk_spec present (fresh chunk List.mem_cons_self) first with
        ⟨elsewhere, between, betweenTable, betweenSpec, betweenRows⟩
      have stillFresh : forall other, other ∈ chunks -> ¬ (boot.job run.runId other).isDone next :=
        fun other member => stillFresh_of_sameElsewhere distinct elsewhere member
          (fresh other (List.mem_cons_of_mem _ member))
      rcases ih distinct.tail betweenTable stillFresh rest with ⟨others, final, finalTable, spec, counted⟩
      refine ⟨fun runId key different => ?_, final, finalTable, spec.trans betweenSpec, ?_⟩
      · have apart : ¬ ((boot.job run.runId chunk).runId = runId ∧ (boot.job run.runId chunk).key = key) :=
          fun same => different same.1.symm
        exact (others runId key different).trans (elsewhere runId key apart)
      · rw [counted, betweenRows, List.count_append, count_selected once, List.countP_cons]
        omega

end Counting

/-! ## Runs on top of one another -/

/-- The rows a run finds in the table it commits to: all rows of a registered table
whose partition spec has the signature asked for.  They are there twice as soon as
the run has copied them. -/
def retained (boot : Bootstrap ρ) (world : World ρ) : List ρ :=
  match world.catalog with
  | some table =>
      if desiredSignature boot.cfg.partitionBy = specSignature table.spec then table.rows else []
  | none => []

theorem planBootstrap_eq_some {boot : Bootstrap ρ} {runId : String} {world : World ρ}
    {planned : World ρ × List Chunk} (unrecorded : listDone runId world.chunkState = [])
    (found : boot.planBootstrap runId world = some planned) :
    boot.plan = some planned.2 ∧ planned.1.chunkState = world.chunkState ∧
    Exists fun table : LakeTable ρ => planned.1.catalog = some table ∧
      table.rows = retained boot world ∧
      specSignature table.spec = desiredSignature boot.cfg.partitionBy := by
  rw [Bootstrap.planBootstrap] at found
  cases created : createOrGetTable boot.sourceNames boot.cfg.partitionBy none world.catalog with
  | mk catalog error =>
      rw [created] at found
      cases error with
      | some message => cases found
      | none =>
          cases catalog with
          | none => cases found
          | some table =>
              rcases Option.map_eq_some_iff.mp found with ⟨chunks, planOk, rfl⟩
              refine ⟨?_, rfl, _, rfl, ?_⟩
              · rw [planOk, unrecorded]
                simp
              · rw [rows_evolveTableSchema, spec_evolveTableSchema, retained]
                cases existing : world.catalog with
                | none =>
                    rw [existing, createOrGetTable] at created
                    have made := signature_createTable (congrArg Created.catalog created)
                    exact ⟨made.2, made.1⟩
                | some old =>
                    rw [existing, createOrGetTable] at created
                    by_cases same : desiredSignature boot.cfg.partitionBy = specSignature old.spec
                    · rw [if_pos same] at created
                      cases created
                      simp only [if_pos same]
                      exact ⟨trivial, same.symm⟩
                    · rw [if_neg same] at created
                      have made := signature_createTable (congrArg Created.catalog created)
                      simp only [if_neg same]
                      exact ⟨made.2, made.1⟩

/-- The runs that are still to come stay unrecorded in a run of another id. -/
theorem unrecorded_rest {run : Run} {runs : List Run} {world next : World ρ}
    (apart : ((run :: runs).map (fun run => run.runId)).Nodup)
    (unrecorded : forall other, other ∈ run :: runs -> listDone other.runId world.chunkState = [])
    (others : forall runId key, runId ≠ run.runId ->
      (key ∈ listDone runId next.chunkState ↔ key ∈ listDone runId world.chunkState)) :
    forall other, other ∈ runs -> listDone other.runId next.chunkState = [] := by
  intro other member
  have different : other.runId ≠ run.runId :=
    fun same => (List.nodup_cons.mp apart).1 (List.mem_map.mpr ⟨other, member, same⟩)
  apply List.eq_nil_iff_forall_not_mem.mpr
  intro key listed
  have before := (others other.runId key different).mp listed
  rw [unrecorded other (List.mem_cons_of_mem _ member)] at before
  cases before

section Counting

variable [DecidableEq ρ]

/-- A completed run adds every source row once to what it found. -/
theorem bootstrapTableJob_spec {boot : Bootstrap ρ} {run : Run} {world after : World ρ}
    (numeric : NumericIds boot) {row : ρ} (member : row ∈ boot.source.rows)
    (once : boot.source.rows.count row = 1) (unrecorded : listDone run.runId world.chunkState = [])
    (completed : boot.bootstrapTableJob run world = some after) :
    (forall runId key, runId ≠ run.runId ->
      (key ∈ listDone runId after.chunkState ↔ key ∈ listDone runId world.chunkState)) ∧
    after.rows.count row = (retained boot world).count row + 1 ∧ retained boot after = after.rows := by
  rcases Option.bind_eq_some_iff.mp completed with ⟨planned, found, ran⟩
  rcases planBootstrap_eq_some unrecorded found with ⟨planOk, sameState, table, present, rows, signature⟩
  have fresh : forall chunk, chunk ∈ planned.2 -> ¬ (boot.job run.runId chunk).isDone planned.1 := by
    intro chunk _ done
    have listed : (boot.job run.runId chunk).key ∈ listDone run.runId planned.1.chunkState := done
    rw [sameState, unrecorded] at listed
    cases listed
  rcases runChunks_spec once (distinct_plan planOk) present fresh ran with
    ⟨others, final, finalTable, spec, counted⟩
  have covered : planned.2.countP (fun chunk => chunk.selects boot.source.accessors row) = 1 :=
    covers_plan numeric planOk member
  have afterRows : after.rows = final.rows := by rw [World.rows, finalTable]
  refine ⟨?_, ?_, ?_⟩
  · rw [← sameState]
    exact others
  · rw [afterRows, counted, covered, rows]
  · rw [retained, finalTable]
    simp only [spec, signature, if_pos]
    exact afterRows.symm

/-- Runs that complete one after the other add every source row as often as
there are runs. -/
theorem bootstrapRuns_count {boot : Bootstrap ρ} (numeric : NumericIds boot) {row : ρ}
    (member : row ∈ boot.source.rows) (once : boot.source.rows.count row = 1) {runs : List Run}
    (apart : (runs.map (fun run => run.runId)).Nodup) {world after : World ρ}
    (unrecorded : forall run, run ∈ runs -> listDone run.runId world.chunkState = [])
    (found : retained boot world = world.rows)
    (completed : boot.bootstrapRuns runs world = some after) :
    after.rows.count row = world.rows.count row + runs.length := by
  induction runs generalizing world with
  | nil =>
      cases completed
      rfl
  | cons run runs ih =>
      rcases Option.bind_eq_some_iff.mp completed with ⟨next, first, rest⟩
      rcases bootstrapTableJob_spec numeric member once (unrecorded run List.mem_cons_self) first with
        ⟨others, counted, kept⟩
      have grown := ih (List.nodup_cons.mp apart).2 (unrecorded_rest apart unrecorded others) kept rest
      rw [found] at counted
      rw [grown, counted, List.length_cons]
      omega

end Counting

/-- The lake holds every source row exactly once.  Rows that are only in the lake do
not matter here, because a bootstrap is not asked to remove them. -/
def Reloaded [DecidableEq ρ] (boot : Bootstrap ρ) (world : World ρ) : Prop :=
  forall row, row ∈ boot.source.rows -> world.rows.count row = 1

/-- Completed runs leave the lake with every source row exactly once only if the
source is empty, or there was one run and it found none of the source rows in the
table.  The ops of the chunks may have failed and been retried in any way.  A second
run has object keys of its own, so nothing refuses its files. -/
theorem reloaded_iff [DecidableEq ρ] {boot : Bootstrap ρ} {rowId : ρ -> κ}
    (unique : (boot.source.rows.map rowId).Nodup) (numeric : NumericIds boot) {runs : List Run}
    (some_run : runs ≠ []) (apart : (runs.map (fun run => run.runId)).Nodup) {world after : World ρ}
    (unrecorded : forall run, run ∈ runs -> listDone run.runId world.chunkState = [])
    (completed : boot.bootstrapRuns runs world = some after) :
    Reloaded boot after ↔ boot.source.rows = [] ∨
      runs.length = 1 ∧ forall row, row ∈ boot.source.rows -> row ∉ retained boot world := by
  have once (row : ρ) (member : row ∈ boot.source.rows) : boot.source.rows.count row = 1 :=
    List.count_eq_one_of_mem (List.Nodup.of_map _ unique) member
  cases runs with
  | nil => exact absurd rfl some_run
  | cons run runs =>
      rcases Option.bind_eq_some_iff.mp completed with ⟨next, first, rest⟩
      have total (row : ρ) (member : row ∈ boot.source.rows) :
          after.rows.count row = (retained boot world).count row + 1 + runs.length := by
        rcases bootstrapTableJob_spec numeric member (once row member)
          (unrecorded run List.mem_cons_self) first with ⟨others, counted, kept⟩
        rw [bootstrapRuns_count numeric member (once row member) (List.nodup_cons.mp apart).2
          (unrecorded_rest apart unrecorded others) kept rest, counted]
      constructor
      · intro reloaded
        by_cases empty : boot.source.rows = []
        · exact Or.inl empty
        · rcases List.exists_mem_of_ne_nil _ empty with ⟨row, member⟩
          have single := total row member
          rw [reloaded row member] at single
          refine Or.inr ⟨by rw [List.length_cons]; omega, fun other otherMember => ?_⟩
          have none := total other otherMember
          rw [reloaded other otherMember] at none
          exact List.count_eq_zero.mp (by omega)
      · rintro (empty | ⟨single, clear⟩) row member
        · rw [empty] at member
          cases member
        · rw [List.length_cons] at single
          rw [total row member, List.count_eq_zero.mpr (clear row member)]
          omega

/-- A table of one row with a text id, which both schemas have as a string. -/
def lookupTable : Bootstrap Nat :=
  { connectionId := 1, lakeBucket := "lake", rawPrefix := "raw"
    cfg :=
      { schema := "public", table := "events", partitionBy := [], watermarkColumn := none, pk := "id"
        supportsParallelChunking := false }
    settings := { extractRowsPerChunk := 1000000, extractRowGroupRows := 100000 }
    unionApplies := true, dropRemoved := false, filesFit := true
    source :=
      { columns := [{ name := "id", pgType := "text" }]
        accessors := { id := fun _ => none, timestamp := fun _ _ _ => none }
        rows := [7], hasLeadingIndex := false, approxRows := -1 } }

def smoothRun (runId : String) : Run :=
  { runId := runId, failed := fun _ => [], last := fun _ => clean }

def noLake : World Nat :=
  { catalog := none, chunkState := [] }

theorem first_run_reloads :
    Exists fun after : World Nat =>
      lookupTable.bootstrapRuns [smoothRun "first"] noLake = some after ∧ Reloaded lookupTable after := by
  have rows : (lookupTable.bootstrapRuns [smoothRun "first"] noLake).map (fun after => after.rows) =
      some [7] := by decide
  rcases Option.map_eq_some_iff.mp rows with ⟨after, completed, _⟩
  have unrecorded : forall run, run ∈ [smoothRun "first"] ->
      listDone run.runId noLake.chunkState = [] := fun _ _ => rfl
  refine ⟨after, completed, (@reloaded_iff Nat Nat _ lookupTable (fun row => row) (by decide)
    (fun no => Bool.noConfusion no) [smoothRun "first"] (by decide) (by decide) noLake after unrecorded
    completed).mpr (Or.inr ⟨rfl, fun row _ => List.not_mem_nil⟩)⟩

/-- The second run appends the table once more. -/
theorem second_run_duplicates :
    Exists fun after : World Nat =>
      lookupTable.bootstrapRuns [smoothRun "first", smoothRun "second"] noLake = some after ∧
        ¬ Reloaded lookupTable after := by
  have rows : (lookupTable.bootstrapRuns [smoothRun "first", smoothRun "second"] noLake).map
      (fun after => after.rows) = some [7, 7] := by decide
  rcases Option.map_eq_some_iff.mp rows with ⟨after, completed, twice⟩
  refine ⟨after, completed, fun reloaded => ?_⟩
  have one := reloaded 7 (by decide)
  rw [twice] at one
  exact absurd one (by decide)

end BootstrapJob
end WarehouseSync

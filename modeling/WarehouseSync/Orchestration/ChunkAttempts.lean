import WarehouseSync.Load.IcebergWriter
import WarehouseSync.State.Chunks

namespace WarehouseSync
namespace BootstrapJob

open Chunks CopyWorker IcebergWriter

/-!
# Attempts at one chunk (`extract_chunk_op`)

Dagster executes the op again whenever an attempt raises or its worker dies.
The lake table and the chunk state are two stores, so an attempt can get through
any prefix of its steps: a step may raise or the worker may die in it, and in
both cases the step may or may not have taken effect.

An attempt that leaves its commit in the lake without leaving the DONE marker is
tried again by the next one.  The marker does not prevent the second commit
then, but the object keys of the chunk do: they carry no attempt number, so the
same paths are given to `add_files`, which refuses them.  The price is that such
a chunk never returns any more.
-/

universe u

variable {ρ : Type u}

/-- The two stores a bootstrap writes.  They are written one after the other without
a transaction over both, which is why an attempt may leave them at odds. -/
structure World (ρ : Type u) where
  catalog : Option (LakeTable ρ)
  chunkState : List ChunkRecord

def World.rows (world : World ρ) : List ρ :=
  match world.catalog with
  | some table => table.rows
  | none => []

/-- What happens in one step of an attempt.  A step that raises or in which the
worker dies may have taken effect all the same, when only its answer was lost. -/
inductive Outcome where
  | returns
  | raises (tookEffect : Bool)
  | dies (tookEffect : Bool)
deriving DecidableEq, Repr

def Outcome.tookEffect : Outcome -> Bool
  | .returns => true
  | .raises tookEffect => tookEffect
  | .dies tookEffect => tookEffect

/-- The outcomes of the steps an attempt may take, and its error text.  They are
given beforehand, so every way in which an attempt can fail is one value. -/
structure Fate where
  listDone : Outcome
  putRunning : Outcome
  extract : Outcome
  commit : Outcome
  putDone : Outcome
  putFailed : Outcome
  error : String
deriving Repr

/-- What the op knows of its chunk: the keys under which it is recorded, and the
files that copying it produces.  All attempts write the same object keys, and
`compatible` is what `add_files` finds of the schema that they are written with. -/
structure ChunkJob (ρ : Type u) where
  runId : String
  key : String
  connectionId : Int
  icebergTableName : String
  tableFqn : String
  extracted : ChunkResult ρ
  compatible : Bool

/-- The summary a successful attempt hands to `commit_chunks`. -/
structure ChunkSummary where
  connectionId : Int
  s3Uris : List String
  rows : Nat
  icebergTableName : String
  tableFqn : String
deriving DecidableEq, Repr

/-- How an attempt ends for Dagster.  A dead worker is retried like an error, but
nothing has marked the chunk as failed. -/
inductive Result where
  | returned (summary : ChunkSummary)
  | raised
  | died
deriving DecidableEq, Repr

def Result.isReturned : Result -> Bool
  | .returned _ => true
  | _ => false

namespace ChunkJob

def record (job : ChunkJob ρ) (status : Status) : ChunkRecord :=
  { runId := job.runId, chunkKey := job.key, status := status, connectionId := job.connectionId
    s3Uri := none, rows := none, error := none }

def doneRecord (job : ChunkJob ρ) : ChunkRecord :=
  { job.record .done with
    s3Uri := (job.extracted.files.map (fun file => file.uri)).head?
    rows := some job.extracted.rows }

def summary (job : ChunkJob ρ) (s3Uris : List String) (rows : Nat) : ChunkSummary :=
  { connectionId := job.connectionId, s3Uris := s3Uris, rows := rows
    icebergTableName := job.icebergTableName, tableFqn := job.tableFqn }

/-- The rows of the chunk. -/
def rows (job : ChunkJob ρ) : List ρ :=
  fileRows job.extracted.files

def isDone (job : ChunkJob ρ) (world : World ρ) : Prop :=
  job.key ∈ listDone job.runId world.chunkState

instance (job : ChunkJob ρ) (world : World ρ) : Decidable (job.isDone world) :=
  inferInstanceAs (Decidable (job.key ∈ listDone job.runId world.chunkState))

end ChunkJob

/-- Writing a record of a chunk, if the step takes effect.  The record of the same
run and key is replaced, whatever its status was. -/
def World.put (world : World ρ) (record : ChunkRecord) (outcome : Outcome) : World ρ :=
  if outcome.tookEffect = true then { world with chunkState := Chunks.put record world.chunkState }
  else world

/-- The `except` branch: mark the chunk FAILED and raise again.  An error in marking
it hides the first one, but the attempt fails either way. -/
def markFailed (job : ChunkJob ρ) (fate : Fate) (world : World ρ) : World ρ × Result :=
  let marked := world.put { job.record .failed with error := some fate.error } fate.putFailed
  match fate.putFailed with
  | .dies _ => (marked, .died)
  | _ => (marked, .raised)

/-- The `try` branch from the DONE marker on.  The commit is in the table already,
so an error here is the case in which a retry commits the same files again. -/
def markDone (job : ChunkJob ρ) (fate : Fate) (world : World ρ) : World ρ × Result :=
  let marked := world.put job.doneRecord fate.putDone
  match fate.putDone with
  | .returns =>
      (marked, .returned (job.summary (job.extracted.files.map (fun file => file.uri)) job.extracted.rows))
  | .raises _ => markFailed job fate marked
  | .dies _ => (marked, .died)

/-- The `try` branch from the commit on.  That `add_files` refuses the files is an
error like any other, unless the worker dies in the step. -/
def commitChunk (job : ChunkJob ρ) (fate : Fate) (world : World ρ) : World ρ × Result :=
  match commitFilesWithRetry job.compatible job.extracted.files world.catalog, fate.commit with
  | some catalog, .returns => markDone job fate { world with catalog := catalog }
  | some catalog, .raises tookEffect =>
      markFailed job fate (if tookEffect = true then { world with catalog := catalog } else world)
  | some catalog, .dies tookEffect =>
      (if tookEffect = true then { world with catalog := catalog } else world, .died)
  | none, .dies _ => (world, .died)
  | none, _ => markFailed job fate world

/-- One attempt of `extract_chunk_op`.  The chunk state is read first, and an
attempt that finds the chunk done returns an empty summary without touching the
table. -/
def extractChunkOp (job : ChunkJob ρ) (fate : Fate) (world : World ρ) : World ρ × Result :=
  match fate.listDone with
  | .raises _ => (world, .raised)
  | .dies _ => (world, .died)
  | .returns =>
      if job.isDone world then (world, .returned (job.summary [] 0))
      else
        let running := world.put (job.record .running) fate.putRunning
        match fate.putRunning with
        | .raises _ => (running, .raised)
        | .dies _ => (running, .died)
        | .returns =>
            match fate.extract with
            | .raises _ => markFailed job fate running
            | .dies _ => (running, .died)
            | .returns => commitChunk job fate running

/-- The world after attempts none of which returns.  There is no bound on their
number here, while the retry policy has one. -/
def retries (job : ChunkJob ρ) : World ρ -> List Fate -> Option (World ρ)
  | world, [] => some world
  | world, fate :: fates =>
      let attempt := extractChunkOp job fate world
      if attempt.2.isReturned = true then none else retries job attempt.1 fates

/-! ## What attempts leave -/

@[simp] theorem catalog_put (world : World ρ) (record : ChunkRecord) (outcome : Outcome) :
    (world.put record outcome).catalog = world.catalog := by
  rw [World.put]
  split
  · rfl
  · rfl

/-- Only a DONE record makes a chunk done. -/
theorem not_isDone_put {job : ChunkJob ρ} {world : World ρ} (fresh : ¬ job.isDone world) (record : ChunkRecord)
    (own : record.runId = job.runId ∧ record.chunkKey = job.key) (other : record.status ≠ .done)
    (outcome : Outcome) : ¬ job.isDone (world.put record outcome) := by
  rw [World.put]
  by_cases effect : outcome.tookEffect = true
  · rw [if_pos effect, ChunkJob.isDone, mem_listDone_put, if_pos own]
    exact other
  · rw [if_neg effect]
    exact fresh

theorem markFailed_spec (job : ChunkJob ρ) (fate : Fate) {world : World ρ} (fresh : ¬ job.isDone world) :
    (markFailed job fate world).1.catalog = world.catalog ∧ ¬ job.isDone (markFailed job fate world).1 ∧
      (markFailed job fate world).2.isReturned = false := by
  have marked := not_isDone_put fresh { job.record .failed with error := some fate.error } ⟨rfl, rfl⟩
    (fun same => by cases same) fate.putFailed
  unfold markFailed
  split
  · exact ⟨catalog_put _ _ _, marked, rfl⟩
  · exact ⟨catalog_put _ _ _, marked, rfl⟩

theorem catalog_markDone (job : ChunkJob ρ) (fate : Fate) (world : World ρ) :
    (markDone job fate world).1.catalog = world.catalog := by
  unfold markDone
  split
  · exact catalog_put _ _ _
  · unfold markFailed
    split
    · rw [catalog_put, catalog_put]
    · rw [catalog_put, catalog_put]
  · exact catalog_put _ _ _

/-- What one attempt can come to: it leaves the table alone and the chunk not done,
and fails; or its commit is in the table, whatever becomes of the marker.  The
second case asks that the commit was accepted, which a table that has the files does
not do. -/
def AttemptLeaves (job : ChunkJob ρ) (world : World ρ) (attempt : World ρ × Result) : Prop :=
  (attempt.1.catalog = world.catalog ∧ ¬ job.isDone attempt.1 ∧ attempt.2.isReturned = false) ∨
    commitFilesWithRetry job.compatible job.extracted.files world.catalog = some attempt.1.catalog

theorem commitChunk_leaves (job : ChunkJob ρ) (fate : Fate) {world : World ρ} (fresh : ¬ job.isDone world) :
    AttemptLeaves job world (commitChunk job fate world) := by
  unfold commitChunk
  split
  · rename_i catalog committed _
    refine Or.inr ?_
    rw [committed, catalog_markDone]
  · rename_i catalog tookEffect committed _
    cases tookEffect with
    | false => exact Or.inl (markFailed_spec job fate fresh)
    | true =>
        have still : ¬ job.isDone { world with catalog := catalog } := fresh
        have fails := markFailed_spec job fate still
        refine Or.inr ?_
        rw [committed, if_pos rfl, fails.1]
  · rename_i catalog tookEffect committed _
    cases tookEffect with
    | false => exact Or.inl ⟨rfl, fresh, rfl⟩
    | true => exact Or.inr committed
  · exact Or.inl ⟨rfl, fresh, rfl⟩
  · exact Or.inl (markFailed_spec job fate fresh)

/-- An attempt at a chunk that is already done changes nothing. -/
theorem extractChunkOp_done {job : ChunkJob ρ} {fate : Fate} {world : World ρ} (done : job.isDone world) :
    (extractChunkOp job fate world).1 = world := by
  unfold extractChunkOp
  split
  · rfl
  · rfl
  · rw [if_pos done]

/-- An attempt at any other chunk. -/
theorem extractChunkOp_leaves (job : ChunkJob ρ) (fate : Fate) {world : World ρ} (fresh : ¬ job.isDone world) :
    AttemptLeaves job world (extractChunkOp job fate world) := by
  have running := not_isDone_put fresh (job.record .running) ⟨rfl, rfl⟩ (fun same => by cases same)
    fate.putRunning
  have same := catalog_put world (job.record .running) fate.putRunning
  unfold extractChunkOp
  split
  · exact Or.inl ⟨rfl, fresh, rfl⟩
  · exact Or.inl ⟨rfl, fresh, rfl⟩
  · rw [if_neg fresh]
    simp only
    split
    · exact Or.inl ⟨same, running, rfl⟩
    · exact Or.inl ⟨same, running, rfl⟩
    · split
      · have fails := markFailed_spec job fate running
        exact Or.inl ⟨fails.1.trans same, fails.2⟩
      · exact Or.inl ⟨same, running, rfl⟩
      · rcases commitChunk_leaves job fate running with ⟨kept, still, failed⟩ | committed
        · exact Or.inl ⟨kept.trans same, still, failed⟩
        · rw [same] at committed
          exact Or.inr committed

/-- How far a chunk has come since the table was as given: its rows are not there
yet, or its commit is, which happens to the given table and only once.  It is the
invariant over the attempts. -/
inductive Stage (job : ChunkJob ρ) (table : LakeTable ρ) (world : World ρ) : Prop where
  | untouched : world.catalog = some table -> ¬ job.isDone world -> Stage job table world
  | committed (after : LakeTable ρ) : world.catalog = some after ->
      commitFilesWithRetry job.compatible job.extracted.files (some table) = some (some after) ->
      Stage job table world

def Stage.IsCommitted (job : ChunkJob ρ) (table : LakeTable ρ) (world : World ρ) : Prop :=
  Exists fun after : LakeTable ρ => world.catalog = some after ∧
    commitFilesWithRetry job.compatible job.extracted.files (some table) = some (some after)

/-- A commit on top of the chunk's own adds nothing: without files there is
nothing to add, and with files it is refused. -/
theorem commitFilesWithRetry_twice {job : ChunkJob ρ} {table after : LakeTable ρ} {catalog : Option (LakeTable ρ)}
    (once : commitFilesWithRetry job.compatible job.extracted.files (some table) = some (some after))
    (again : commitFilesWithRetry job.compatible job.extracted.files (some after) = some catalog) :
    catalog = some after := by
  cases files : job.extracted.files with
  | nil =>
      rw [files] at again
      exact (Option.some.inj again).symm
  | cons file rest =>
      rw [files] at once again
      rw [commitFilesWithRetry_again once] at again
      cases again

/-- The step: every attempt keeps the stage, and one that returns has the commit
in the table behind it. -/
theorem Stage.attempt {job : ChunkJob ρ} {table : LakeTable ρ} {world : World ρ} (stage : Stage job table world)
    (fate : Fate) : Stage job table (extractChunkOp job fate world).1 ∧
      ((extractChunkOp job fate world).2.isReturned = true ->
        Stage.IsCommitted job table (extractChunkOp job fate world).1) := by
  cases stage with
  | untouched present fresh =>
      rcases extractChunkOp_leaves job fate fresh with ⟨same, still, failed⟩ | commits
      · refine ⟨.untouched (same.trans present) still, fun returned => ?_⟩
        rw [failed] at returned
        cases returned
      · rw [present] at commits
        rcases commitFilesWithRetry_eq_some commits with ⟨after, reached, _⟩
        rw [reached] at commits
        exact ⟨.committed after reached commits, fun _ => ⟨after, reached, commits⟩⟩
  | committed after present once =>
      have reached : (extractChunkOp job fate world).1.catalog = some after := by
        by_cases done : job.isDone world
        · rw [extractChunkOp_done done, present]
        · rcases extractChunkOp_leaves job fate done with ⟨same, _⟩ | commits
          · rw [same, present]
          · rw [present] at commits
            exact commitFilesWithRetry_twice once commits
      exact ⟨.committed after reached once, fun _ => ⟨after, reached, once⟩⟩

theorem retries_cons {job : ChunkJob ρ} {fate : Fate} {fates : List Fate} {world middle : World ρ}
    (retried : retries job world (fate :: fates) = some middle) :
    (extractChunkOp job fate world).2.isReturned = false ∧
      retries job (extractChunkOp job fate world).1 fates = some middle := by
  rw [retries] at retried
  by_cases returned : (extractChunkOp job fate world).2.isReturned = true
  · simp only [if_pos returned] at retried
    cases retried
  · simp only [if_neg returned] at retried
    exact ⟨Bool.eq_false_iff.mpr returned, retried⟩

/-- The run: any number of failed attempts keep the stage. -/
theorem Stage.retries {job : ChunkJob ρ} {table : LakeTable ρ} {world middle : World ρ}
    (stage : Stage job table world) {fates : List Fate} (retried : retries job world fates = some middle) :
    Stage job table middle := by
  induction fates generalizing world with
  | nil =>
      cases retried
      exact stage
  | cons fate fates ih => exact ih (stage.attempt fate).1 (retries_cons retried).2

/-- A chunk whose op finally returns has its rows in the lake once. -/
theorem committed_of_returned {job : ChunkJob ρ} {world middle : World ρ} {table : LakeTable ρ}
    (present : world.catalog = some table) (fresh : ¬ job.isDone world) {failed : List Fate}
    (retried : retries job world failed = some middle) {last : Fate}
    (returned : (extractChunkOp job last middle).2.isReturned = true) :
    Exists fun after : LakeTable ρ => (extractChunkOp job last middle).1.catalog = some after ∧
      after.rows = table.rows ++ job.rows ∧ after.spec = table.spec := by
  have stage : Stage job table middle := (Stage.untouched present fresh).retries retried
  rcases (stage.attempt last).2 returned with ⟨after, reached, commits⟩
  rcases commitFilesWithRetry_eq_some commits with ⟨same, equal, rows, spec⟩
  cases equal
  exact ⟨after, reached, rows, spec⟩

/-- The price.  Once the files are in the table and the chunk is not done, every
later attempt fails at the commit, however smoothly it goes otherwise. -/
theorem never_returns_again {job : ChunkJob ρ} {world : World ρ} (lost : ¬ job.isDone world)
    (refused : commitFilesWithRetry job.compatible job.extracted.files world.catalog = none) (fates : List Fate) :
    Exists fun middle : World ρ => retries job world fates = some middle ∧ middle.catalog = world.catalog := by
  induction fates generalizing world with
  | nil => exact ⟨world, rfl, rfl⟩
  | cons fate fates ih =>
      rcases extractChunkOp_leaves job fate lost with ⟨same, still, failed⟩ | commits
      · rw [← same] at refused
        rcases ih still refused with ⟨middle, retried, kept⟩
        refine ⟨middle, ?_, kept.trans same⟩
        unfold retries
        simp only [failed, Bool.false_eq_true, if_false]
        exact retried
      · rw [refused] at commits
        cases commits

/-- The chunk state of every other key is the same.  This frame condition lets the
chunks of a run be followed one by one. -/
def SameElsewhere (job : ChunkJob ρ) (before after : World ρ) : Prop :=
  forall runId key, ¬ (job.runId = runId ∧ job.key = key) ->
    (key ∈ listDone runId after.chunkState ↔ key ∈ listDone runId before.chunkState)

theorem SameElsewhere.trans {job : ChunkJob ρ} {first second third : World ρ}
    (left : SameElsewhere job first second) (right : SameElsewhere job second third) :
    SameElsewhere job first third :=
  fun runId key other => (right runId key other).trans (left runId key other)

theorem sameElsewhere_of_chunkState {job : ChunkJob ρ} {before after : World ρ}
    (same : after.chunkState = before.chunkState) : SameElsewhere job before after :=
  fun runId key _ => by rw [same]

theorem sameElsewhere_put {job : ChunkJob ρ} (world : World ρ) {record : ChunkRecord}
    (outcome : Outcome) (own : record.runId = job.runId ∧ record.chunkKey = job.key) :
    SameElsewhere job world (world.put record outcome) := by
  intro runId key other
  rw [World.put]
  by_cases effect : outcome.tookEffect = true
  · rw [if_pos effect, mem_listDone_put, own.1, own.2, if_neg other]
  · rw [if_neg effect]

theorem sameElsewhere_markFailed (job : ChunkJob ρ) (fate : Fate) (world : World ρ) :
    SameElsewhere job world (markFailed job fate world).1 := by
  have put := @sameElsewhere_put _ job world { job.record .failed with error := some fate.error }
    fate.putFailed ⟨rfl, rfl⟩
  rw [markFailed]
  cases outcome : fate.putFailed <;> rw [outcome] at put <;> exact put

theorem sameElsewhere_markDone (job : ChunkJob ρ) (fate : Fate) (world : World ρ) :
    SameElsewhere job world (markDone job fate world).1 := by
  have put := @sameElsewhere_put _ job world job.doneRecord fate.putDone ⟨rfl, rfl⟩
  rw [markDone]
  cases outcome : fate.putDone <;> rw [outcome] at put
  · exact put
  · exact put.trans (sameElsewhere_markFailed job fate _)
  · exact put

theorem sameElsewhere_commitChunk (job : ChunkJob ρ) (fate : Fate) (world : World ρ) :
    SameElsewhere job world (commitChunk job fate world).1 := by
  have committed (tookEffect : Bool) (catalog : Option (LakeTable ρ)) : SameElsewhere job world
      (if tookEffect = true then { world with catalog := catalog } else world) := by
    apply sameElsewhere_of_chunkState
    split
    · rfl
    · rfl
  unfold commitChunk
  split
  · rename_i catalog _ _
    exact (committed true catalog).trans (sameElsewhere_markDone job fate _)
  · exact (committed _ _).trans (sameElsewhere_markFailed job fate _)
  · exact committed _ _
  · exact sameElsewhere_of_chunkState rfl
  · exact sameElsewhere_markFailed job fate world

theorem sameElsewhere_extractChunkOp (job : ChunkJob ρ) (fate : Fate) (world : World ρ) :
    SameElsewhere job world (extractChunkOp job fate world).1 := by
  have unchanged : SameElsewhere job world world := sameElsewhere_of_chunkState rfl
  have running (outcome : Outcome) := @sameElsewhere_put _ job world (job.record .running) outcome ⟨rfl, rfl⟩
  rw [extractChunkOp]
  cases fate.listDone with
  | raises effect => exact unchanged
  | dies effect => exact unchanged
  | returns =>
      by_cases done : job.isDone world
      · simp only [if_pos done]
        exact unchanged
      · simp only [if_neg done]
        cases fate.putRunning with
        | raises effect => exact running _
        | dies effect => exact running _
        | returns =>
            cases fate.extract with
            | raises effect => exact (running _).trans (sameElsewhere_markFailed job fate _)
            | dies effect => exact running _
            | returns => exact (running _).trans (sameElsewhere_commitChunk job fate _)

theorem sameElsewhere_retries {job : ChunkJob ρ} {world middle : World ρ} {fates : List Fate}
    (retried : retries job world fates = some middle) : SameElsewhere job world middle := by
  induction fates generalizing world with
  | nil =>
      cases retried
      exact sameElsewhere_of_chunkState rfl
  | cons fate fates ih =>
      exact (sameElsewhere_extractChunkOp job fate world).trans (ih (retries_cons retried).2)

/-! ## Exactly once -/

/-- The chunk is in the lake exactly once more than before.  Rows are counted,
because another chunk may have brought an equal row. -/
def CommittedOnce [DecidableEq ρ] (job : ChunkJob ρ) (before after : World ρ) : Prop :=
  forall row : ρ, after.rows.count row = before.rows.count row + job.rows.count row

/-- However the attempts at a chunk fail, whenever one finally returns the chunk is
in the lake exactly once.  No condition on the marker is needed: where it is lost,
the commit that is tried again is refused. -/
theorem committed_once [DecidableEq ρ] {job : ChunkJob ρ} {world middle : World ρ} {table : LakeTable ρ}
    (present : world.catalog = some table) (fresh : ¬ job.isDone world) {failed : List Fate}
    (retried : retries job world failed = some middle) {last : Fate}
    (returned : (extractChunkOp job last middle).2.isReturned = true) :
    CommittedOnce job world (extractChunkOp job last middle).1 := by
  rcases committed_of_returned present fresh retried returned with ⟨after, reached, rows, _⟩
  intro row
  rw [World.rows, World.rows, reached, present]
  simp only [rows, List.count_append]

def clean : Fate :=
  { listDone := .returns, putRunning := .returns, extract := .returns, commit := .returns
    putDone := .returns, putFailed := .returns, error := "" }

/-- A chunk of one row in a run of its own. -/
def oneRow : ChunkJob Nat :=
  { runId := "run", key := "public.events#000000", connectionId := 1
    icebergTableName := "public__events", tableFqn := "public.events"
    extracted :=
      { chunkId := 0, table := "public.events", files := [{ uri := "s3://lake/part", rows := [7] }]
        rows := 1 }
    compatible := true }

def emptyLake : World Nat :=
  { catalog := some { schema := ["id"], spec := [], rows := [] }, chunkState := [] }

/-- Copying fails first; then the worker dies with the DONE marker written, and
the last attempt finds it. -/
theorem committedOnce_after_two_failures :
    let failed : List Fate := [{ clean with extract := .raises false }, { clean with putDone := .dies true }]
    Exists fun middle : World Nat => retries oneRow emptyLake failed = some middle ∧
      CommittedOnce oneRow emptyLake (extractChunkOp oneRow clean middle).1 := by
  intro failed
  have retried : retries oneRow emptyLake failed = some _ := rfl
  exact ⟨_, retried, committed_once rfl (by decide) retried (by decide)⟩

/-- The worker died after its commit took effect. -/
def crashed : World Nat :=
  (extractChunkOp oneRow { clean with commit := .dies true } emptyLake).1

/-- No later attempt returns, and the row stays there once. -/
example (fates : List Fate) : Exists fun middle : World Nat =>
    retries oneRow crashed fates = some middle ∧ middle.rows = [7] := by
  have lost : ¬ oneRow.isDone crashed := by decide
  have refused : commitFilesWithRetry oneRow.compatible oneRow.extracted.files crashed.catalog = none := by decide
  rcases never_returns_again lost refused fates with ⟨middle, retried, kept⟩
  refine ⟨middle, retried, ?_⟩
  unfold World.rows
  rw [kept]
  rfl

end BootstrapJob
end WarehouseSync

import WarehouseSync.Extract.PlanCoverage
import WarehouseSync.Library.Selections
import WarehouseSync.Library.Transition

namespace WarehouseSync
namespace SnapshotCopies

open Chunker Selections Transition

/-!
# Which instant a bootstrap copies (`extract/snapshot.py`, `plan_bootstrap`)

The exporter's transaction is open inside the `with` block of `plan_bootstrap`,
and the chunks are yielded after it.  So a worker finds the snapshot closed, falls
back to a view of its own, and reads the source as it is when it starts.  The
chunks of a run are the table of one instant only if the source has not changed
what they select from one start to the next.
-/

universe u

variable {ρ : Type u}

/-- The table and how it is planned.  The planner is a parameter, because which
instant the chunks show depends on what they select and not on how they were cut. -/
structure Setup (ρ : Type u) where
  columns : SourceColumns ρ
  schema : String
  table : String
  rowsPerChunk : Int
  planner : Planner

/-- A chunk worker; a view is all rows of the table in its transaction.  It is fixed
when the worker starts, so what it copies is settled from then on. -/
inductive WorkerState (ρ : Type u) where
  | waiting
  | copying (view : List ρ)
  | copied (view : List ρ)
deriving DecidableEq

def WorkerState.view : WorkerState ρ -> Option (List ρ)
  | .waiting => none
  | .copying view => some view
  | .copied view => some view

/-- The payload of a dynamic output and what has become of it.  Without an exported
snapshot the snapshot id is empty, and with one it may name a transaction that is
closed. -/
structure Worker (ρ : Type u) where
  chunk : Chunk
  exported : Bool
  state : WorkerState ρ
deriving DecidableEq

/-- How far `plan_bootstrap` has come.  The chunks are carried from the plan to the
outputs, as the op is a generator that is resumed for each of them. -/
inductive OpPhase where
  | notStarted
  | exporting (exported : Bool)
  | planned (exported : Bool) (chunks : List Chunk)
  | yielding (exported : Bool) (pending : List Chunk)
  | raised
deriving DecidableEq, Repr

/-- The history has every content of the source, the current one included.  The
exporter is the view of the transaction whose snapshot can be attached, as long as
it is open. -/
structure World (ρ : Type u) where
  source : List ρ
  history : List (List ρ)
  exporter : Option (List ρ)
  op : OpPhase
  workers : List (Worker ρ)
deriving DecidableEq

/-- One step of the source, of the op or of a worker.  Workers start when Dagster
gets to them, so other transactions may commit between any two starts. -/
inductive Event (ρ : Type u) where
  /-- A transaction leaves the source with these rows. -/
  | commit (rows : List ρ)
  | exportSnapshot (succeeds : Bool)
  | plan
  /-- The end of the `with` block. -/
  | close
  | yieldChunk
  | start (index : Nat)
  | finish (index : Nat)
  | retry (index : Nat)
deriving DecidableEq, Repr

/-- `SET TRANSACTION SNAPSHOT`, or the worker's own view if it has no snapshot id
or the exporter is gone. -/
def attach (world : World ρ) (worker : Worker ρ) : List ρ :=
  match worker.exported, world.exporter with
  | true, some view => view
  | _, _ => world.source

def World.setWorker (world : World ρ) (index : Nat) (worker : Worker ρ) (state : WorkerState ρ) : World ρ :=
  { world with workers := world.workers.set index { worker with state := state } }

/-- One step.  The exporter goes with the end of the `with` block, and no chunk is
yielded before that, so by the time a worker asks for the snapshot there is none. -/
def step (setup : Setup ρ) (world : World ρ) : Event ρ -> Option (World ρ)
  | .commit rows => some { world with source := rows, history := world.history ++ [rows] }
  | .exportSnapshot succeeds =>
      match world.op with
      | .notStarted => some { world with
          op := .exporting succeeds
          exporter := if succeeds = true then some world.source else none }
      | _ => none
  | .plan =>
      match world.op with
      | .exporting exported =>
          match setup.planner.plan setup.columns setup.schema setup.table setup.rowsPerChunk
              world.source with
          | some chunks => some { world with op := .planned exported chunks }
          | none => some { world with op := .raised, exporter := none }
      | _ => none
  | .close =>
      match world.op with
      | .planned exported chunks => some { world with op := .yielding exported chunks, exporter := none }
      | _ => none
  | .yieldChunk =>
      match world.op with
      | .yielding exported (chunk :: pending) => some { world with
          op := .yielding exported pending
          workers := world.workers ++ [{ chunk := chunk, exported := exported, state := .waiting }] }
      | _ => none
  | .start index =>
      world.workers[index]?.bind (fun worker =>
        match worker.state with
        | .waiting => some (world.setWorker index worker (.copying (attach world worker)))
        | _ => none)
  | .finish index =>
      world.workers[index]?.bind (fun worker =>
        match worker.state with
        | .copying view => some (world.setWorker index worker (.copied view))
        | _ => none)
  | .retry index =>
      world.workers[index]?.bind (fun worker =>
        match worker.state with
        | .waiting => none
        | _ => some (world.setWorker index worker .waiting))

/-- The rows a worker has copied. -/
def Worker.rows (columns : SourceColumns ρ) (worker : Worker ρ) : List ρ :=
  match worker.state with
  | .copied view => view.filter (worker.chunk.selects columns)
  | _ => []

/-- The rows that all chunks have copied.  They are what the commits put into the
lake, in whatever order the workers finish. -/
def World.copied (columns : SourceColumns ρ) (world : World ρ) : List ρ :=
  world.workers.flatMap (fun worker => worker.rows columns)

/-- Every chunk is yielded, and every worker is done; nothing that was planned is
missing from what is compared. -/
def World.Complete (world : World ρ) : Prop :=
  (Exists fun exported => world.op = .yielding exported []) ∧
    forall worker, worker ∈ world.workers -> Exists fun view => worker.state = .copied view

def Event.starts (index : Nat) : Event ρ -> Bool
  | .start other => decide (other = index)
  | _ => false

/-- The content of the source when the worker was last started.  It is read off the
events, so it is a condition on the history and the starts and not on what the
workers did. -/
def sourceAtStart (setup : Setup ρ) : World ρ -> List (Event ρ) -> Nat -> Option (List ρ) -> Option (List ρ)
  | _, [], _, read => read
  | world, event :: events, index, read =>
      match step setup world event with
      | none => read
      | some next =>
          sourceAtStart setup next events index
            (if event.starts index = true then some world.source else read)

variable {setup : Setup ρ} {world next : World ρ}

/-- The op moves on, or a worker starts, finishes or begins again. -/
theorem step_cases {event : Event ρ} (taken : step setup world event = some next) :
    (Exists fun rows => event = .commit rows ∧
      next = { world with source := rows, history := world.history ++ [rows] }) ∨
    (Exists fun succeeds => event = .exportSnapshot succeeds ∧ world.op = .notStarted ∧
      next = { world with
        op := .exporting succeeds
        exporter := if succeeds = true then some world.source else none }) ∨
    (Exists fun exported => Exists fun chunks => event = .plan ∧ world.op = .exporting exported ∧
      setup.planner.plan setup.columns setup.schema setup.table setup.rowsPerChunk world.source = some chunks ∧
        next = { world with op := .planned exported chunks }) ∨
    (Exists fun exported => event = .plan ∧ world.op = .exporting exported ∧
      next = { world with op := .raised, exporter := none }) ∨
    (Exists fun exported => Exists fun chunks => event = .close ∧ world.op = .planned exported chunks ∧
      next = { world with op := .yielding exported chunks, exporter := none }) ∨
    (Exists fun exported => Exists fun chunk => Exists fun pending => event = .yieldChunk ∧
      world.op = .yielding exported (chunk :: pending) ∧ next = { world with
        op := .yielding exported pending
        workers := world.workers ++ [{ chunk := chunk, exported := exported, state := .waiting }] }) ∨
    (Exists fun index => Exists fun worker => Exists fun state => world.workers[index]? = some worker ∧
      next = world.setWorker index worker state ∧
        ((event = .start index ∧ state = .copying (attach world worker)) ∨
          (event = .finish index ∧ Exists fun view => worker.state = .copying view ∧ state = .copied view) ∨
          (event = .retry index ∧ state = .waiting))) := by
  cases event with
  | commit rows =>
      cases taken
      exact Or.inl ⟨rows, rfl, rfl⟩
  | exportSnapshot succeeds =>
      simp only [step] at taken
      split at taken
      · rename_i op
        cases taken
        exact Or.inr (Or.inl ⟨succeeds, rfl, op, rfl⟩)
      · cases taken
  | plan =>
      simp only [step] at taken
      split at taken
      · rename_i exported op
        split at taken
        · rename_i chunks made
          cases taken
          exact Or.inr (Or.inr (Or.inl ⟨exported, chunks, rfl, op, made, rfl⟩))
        · cases taken
          exact Or.inr (Or.inr (Or.inr (Or.inl ⟨exported, rfl, op, rfl⟩)))
      · cases taken
  | close =>
      simp only [step] at taken
      split at taken
      · rename_i exported chunks op
        cases taken
        exact Or.inr (Or.inr (Or.inr (Or.inr (Or.inl ⟨exported, chunks, rfl, op, rfl⟩))))
      · cases taken
  | yieldChunk =>
      simp only [step] at taken
      split at taken
      · rename_i exported chunk pending op
        cases taken
        exact Or.inr (Or.inr (Or.inr (Or.inr (Or.inr (Or.inl ⟨exported, chunk, pending, rfl, op, rfl⟩)))))
      · cases taken
  | start index =>
      rcases Option.bind_eq_some_iff.mp taken with ⟨worker, found, moved⟩
      split at moved
      · cases moved
        exact Or.inr (Or.inr (Or.inr (Or.inr (Or.inr (Or.inr
          ⟨index, worker, _, found, rfl, Or.inl ⟨rfl, rfl⟩⟩)))))
      · cases moved
  | finish index =>
      rcases Option.bind_eq_some_iff.mp taken with ⟨worker, found, moved⟩
      split at moved
      · rename_i view copying
        cases moved
        exact Or.inr (Or.inr (Or.inr (Or.inr (Or.inr (Or.inr
          ⟨index, worker, _, found, rfl, Or.inr (Or.inl ⟨rfl, view, copying, rfl⟩)⟩)))))
      · cases moved
  | retry index =>
      rcases Option.bind_eq_some_iff.mp taken with ⟨worker, found, moved⟩
      split at moved
      · cases moved
      · cases moved
        exact Or.inr (Or.inr (Or.inr (Or.inr (Or.inr (Or.inr
          ⟨index, worker, _, found, rfl, Or.inr (Or.inr ⟨rfl, rfl⟩)⟩)))))

/-- The chunks that are planned and not yet yielded. -/
def OpPhase.pending : OpPhase -> List Chunk
  | .planned _ chunks => chunks
  | .yielding _ pending => pending
  | _ => []

/-- There are workers only after the `with` block, and no row is in two chunks.
This is the invariant from which it follows that no worker finds the exporter. -/
structure Planned (setup : Setup ρ) (world : World ρ) : Prop where
  apart : Apart (world.workers.map (fun worker => worker.chunk) ++ world.op.pending)
    (fun chunk => chunk.selects setup.columns)
  closed : forall exported pending, world.op = .yielding exported pending -> world.exporter = none
  yielded : world.workers ≠ [] -> Exists fun exported => Exists fun pending =>
    world.op = .yielding exported pending

theorem attach_eq_source (planned : Planned setup world) {index : Nat} {worker : Worker ρ}
    (found : world.workers[index]? = some worker) : attach world worker = world.source := by
  rcases planned.yielded (List.ne_nil_of_mem (List.mem_of_getElem? found)) with ⟨exported, pending, op⟩
  unfold attach
  rw [planned.closed exported pending op]
  split
  · rename_i impossible
    cases impossible
  · rfl

theorem chunks_setWorker {index : Nat} {worker : Worker ρ} (found : world.workers[index]? = some worker)
    (state : WorkerState ρ) :
    (world.setWorker index worker state).workers.map (fun other => other.chunk) =
      world.workers.map (fun other => other.chunk) := by
  rcases List.getElem?_eq_some_iff.mp found with ⟨inside, same⟩
  have insideToo : index < (world.workers.map (fun other => other.chunk)).length := by
    rw [List.length_map]
    exact inside
  have here : worker.chunk = (world.workers.map (fun other => other.chunk))[index] := by
    rw [List.getElem_map, same]
  unfold World.setWorker
  rw [List.map_set, here]
  exact List.set_getElem_self _

theorem Planned.setWorker (planned : Planned setup world) {index : Nat} {worker : Worker ρ}
    (found : world.workers[index]? = some worker) (state : WorkerState ρ) :
    Planned setup (world.setWorker index worker state) := by
  have present : world.workers ≠ [] := List.ne_nil_of_mem (List.mem_of_getElem? found)
  refine ⟨?_, planned.closed, fun _ => planned.yielded present⟩
  rw [chunks_setWorker found]
  exact planned.apart

/-- Before the first yield there is nothing to say about workers. -/
theorem Planned.early (none : world.workers = [])
    (apart : Apart world.op.pending (fun chunk => chunk.selects setup.columns))
    (early : forall exported pending, world.op ≠ .yielding exported pending) : Planned setup world := by
  refine ⟨?_, fun exported pending op => absurd op (early exported pending), fun some => absurd none some⟩
  rw [none]
  exact apart

theorem apart_nil : Apart [] (fun chunk => Chunk.selects setup.columns chunk) :=
  fun _ => Nat.zero_le 1

theorem Planned.workers_eq_nil (planned : Planned setup world)
    (early : forall exported pending, world.op ≠ .yielding exported pending) : world.workers = [] := by
  by_contra some
  rcases planned.yielded some with ⟨exported, pending, op⟩
  exact early exported pending op

theorem Planned.step (planned : Planned setup world) {event : Event ρ}
    (taken : SnapshotCopies.step setup world event = some next) : Planned setup next := by
  rcases step_cases taken with ⟨rows, _, rfl⟩ | ⟨succeeds, _, op, rfl⟩ | ⟨exported, chunks, _, op, made, rfl⟩ |
    ⟨exported, _, op, rfl⟩ | ⟨exported, chunks, _, op, rfl⟩ | ⟨exported, chunk, pending, _, op, rfl⟩ |
    ⟨index, worker, state, found, rfl, _⟩
  · exact ⟨planned.apart, planned.closed, planned.yielded⟩
  · exact Planned.early (planned.workers_eq_nil (by simp [op])) apart_nil (by simp)
  · exact Planned.early (planned.workers_eq_nil (by simp [op])) (plan_selects_le_one made) (by simp)
  · exact Planned.early (planned.workers_eq_nil (by simp [op])) apart_nil (by simp)
  · have apart := planned.apart
    rw [op] at apart
    exact ⟨apart, fun _ _ _ => rfl, fun _ => ⟨exported, chunks, rfl⟩⟩
  · refine ⟨?_, fun _ _ _ => planned.closed _ _ op, fun _ => ⟨exported, pending, rfl⟩⟩
    have apart := planned.apart
    rw [op] at apart
    rw [List.map_append, List.append_assoc]
    exact apart
  · exact planned.setWorker found state

/-! ## What a worker has read -/

/-- A worker that is under way or done has the view that was recorded.  A retry
starts it again, and then the later start counts. -/
def HasRead (index : Nat) (world : World ρ) (read : Option (List ρ)) : Prop :=
  forall worker, world.workers[index]? = some worker ->
    forall view, worker.state.view = some view -> read = some view

theorem HasRead.setWorker {index other : Nat} {read after : Option (List ρ)} {worker : Worker ρ}
    {state : WorkerState ρ} (hasRead : HasRead index world read)
    (own : other = index -> forall view, state.view = some view -> after = some view)
    (others : other ≠ index -> after = read) :
    HasRead index (world.setWorker other worker state) after := by
  intro changed listed view seen
  unfold World.setWorker at listed
  rw [List.getElem?_set] at listed
  split at listed
  · rename_i same
    split at listed
    · cases listed
      exact own same view seen
    · cases listed
  · rename_i different
    rw [others different]
    exact hasRead changed listed view seen

theorem HasRead.step (planned : Planned setup world) {index : Nat} {read : Option (List ρ)}
    (hasRead : HasRead index world read) {event : Event ρ}
    (taken : SnapshotCopies.step setup world event = some next) :
    HasRead index next (if event.starts index = true then some world.source else read) := by
  rcases step_cases taken with ⟨rows, rfl, rfl⟩ | ⟨succeeds, rfl, _, rfl⟩ | ⟨_, _, rfl, _, _, rfl⟩ |
    ⟨_, rfl, _, rfl⟩ | ⟨_, _, rfl, _, rfl⟩ | ⟨exported, chunk, pending, rfl, _, rfl⟩ |
    ⟨other, worker, state, found, rfl, ⟨rfl, rfl⟩ | ⟨rfl, view, copying, rfl⟩ | ⟨rfl, rfl⟩⟩
  · exact hasRead
  · exact hasRead
  · exact hasRead
  · exact hasRead
  · exact hasRead
  · intro worker found view seen
    rw [List.getElem?_append] at found
    split at found
    · exact hasRead worker found view seen
    · rcases List.mem_singleton.mp (List.mem_of_getElem? found) with rfl
      cases seen
  · rw [attach_eq_source planned found]
    apply hasRead.setWorker
    · intro same view seen
      rw [if_pos (by simp [Event.starts, same])]
      exact seen
    · intro different
      rw [if_neg (by simp [Event.starts, different])]
  · apply hasRead.setWorker
    · intro same seen copied
      rw [same] at found
      apply hasRead worker found seen
      rw [copying]
      exact copied
    · exact fun _ => rfl
  · apply hasRead.setWorker
    · intro _ view seen
      cases seen
    · exact fun _ => rfl

/-- Nothing has happened yet, and the history begins with what the source has now.
-/
structure World.Idle (world : World ρ) : Prop where
  history : world.history = [world.source]
  op : world.op = .notStarted
  workers : world.workers = []

theorem World.Idle.planned (idle : world.Idle) : Planned setup world := by
  apply Planned.early idle.workers
  · rw [idle.op]
    exact apart_nil
  · rw [idle.op]
    simp

/-- A worker has read the source as it was at its own start, never a snapshot. -/
theorem view_eq_sourceAtStart {last : World ρ} {events : List (Event ρ)} (planned : Planned setup world)
    {index : Nat} {read : Option (List ρ)} (hasRead : HasRead index world read)
    (reached : run (step setup) world events = some last) :
    Planned setup last ∧ HasRead index last (sourceAtStart setup world events index read) := by
  induction events generalizing world read with
  | nil =>
      cases reached
      exact ⟨planned, hasRead⟩
  | cons event events ih =>
      rcases run_cons_eq_some.mp reached with ⟨next, taken, rest⟩
      rw [sourceAtStart, taken]
      exact ih (planned.step taken) (hasRead.step planned taken) rest

/-- What is copied is the table of one instant if and only if at some instant every
chunk selects the rows that the source has at the start of its worker, and all rows
of that instant are in a chunk. -/
theorem copies_one_instant_iff (setup : Setup ρ) (start last : World ρ) (events : List (Event ρ))
    (idle : start.Idle) (reached : run (step setup) start events = some last) (complete : last.Complete) :
    (Exists fun instant => instant ∈ last.history ∧ (last.copied setup.columns).Perm instant) ↔
      Exists fun instant => instant ∈ last.history ∧
        (forall index worker, last.workers[index]? = some worker -> Exists fun read =>
          sourceAtStart setup start events index none = some read ∧
            (read.filter (worker.chunk.selects setup.columns)).Perm
              (instant.filter (worker.chunk.selects setup.columns))) ∧
        forall row, row ∈ instant -> Exists fun worker => worker ∈ last.workers ∧
          worker.chunk.selects setup.columns row = true := by
  have nothing (index : Nat) : HasRead index start none := by
    intro worker found
    rw [idle.workers] at found
    cases found
  have held (index : Nat) := view_eq_sourceAtStart idle.planned (nothing index) reached
  have apart : Apart last.workers (fun worker => worker.chunk.selects setup.columns) := by
    intro row
    have once := (held 0).1.apart row
    rw [List.countP_append, List.countP_map] at once
    exact Nat.le_trans (Nat.le_add_right _ _) once
  have viewed : forall worker, worker ∈ last.workers ->
      worker.rows setup.columns = (worker.state.view.getD []).filter (worker.chunk.selects setup.columns) ∧
        Exists fun view => worker.state.view = some view := by
    intro worker member
    rcases complete.2 worker member with ⟨view, copied⟩
    rw [Worker.rows, copied]
    exact ⟨rfl, view, rfl⟩
  have gathered : last.copied setup.columns =
      gather last.workers (fun worker => worker.state.view.getD [])
        (fun worker => worker.chunk.selects setup.columns) :=
    congrArg List.flatten (List.map_congr_left (fun worker member => (viewed worker member).1))
  rw [gathered]
  apply exists_congr
  intro instant
  rw [gather_perm_iff apart]
  refine and_congr_right (fun _ => and_congr_left (fun _ => ?_))
  constructor
  · intro agree index worker found
    rcases (viewed worker (List.mem_of_getElem? found)).2 with ⟨view, seen⟩
    have same := agree worker (List.mem_of_getElem? found)
    rw [seen] at same
    exact ⟨view, (held index).2 worker found view seen, same⟩
  · intro agree worker member
    rcases List.mem_iff_getElem?.mp member with ⟨index, found⟩
    rcases agree index worker found with ⟨read, started, same⟩
    rcases (viewed worker member).2 with ⟨view, seen⟩
    have equal := (held index).2 worker found view seen
    rw [started] at equal
    cases equal
    rw [seen]
    exact same

/-- Rows with an id and a value, planned by ranges of one id each. -/
def pairSetup : Setup (Int × Nat) :=
  { columns := { id := fun row => some row.1, timestamp := fun _ _ _ => none }
    schema := "public", table := "accounts", rowsPerChunk := 1, planner := .range 2 }

def twoAccounts : World (Int × Nat) :=
  { source := [(1, 70), (2, 30)], history := [[(1, 70), (2, 30)]], exporter := none, op := .notStarted
    workers := [] }

/-- The whole run, with these commits before the second worker starts. -/
def twoWorkers (commits : List (Event (Int × Nat))) : List (Event (Int × Nat)) :=
  [.exportSnapshot true, .plan, .close, .yieldChunk, .yieldChunk, .start 0] ++ commits ++
    [.start 1, .finish 1, .finish 0]

/-- The worker of one account, which has copied its chunk from this view. -/
def pairWorker (index : Nat) (view : List (Int × Nat)) : Worker (Int × Nat) :=
  { chunk := { fullChunk "public" "accounts" with
      chunkId := index, lo := some (index + 1), hi := some (index + 2) }
    exported := true
    state := .copied view }

/-- The end of the run, when the second worker has read the last state. -/
def twoCopied (source : List (Int × Nat)) (history : List (List (Int × Nat))) : World (Int × Nat) :=
  { source := source, history := history, exporter := none, op := .yielding true []
    workers := [pairWorker 0 [(1, 70), (2, 30)], pairWorker 1 source] }

theorem twoCopied_complete (source : List (Int × Nat)) (history : List (List (Int × Nat))) :
    (twoCopied source history).Complete := by
  refine ⟨⟨true, rfl⟩, fun worker member => ?_⟩
  rcases List.mem_cons.mp member with rfl | second
  · exact ⟨_, rfl⟩
  · rw [List.mem_singleton.mp second]
    exact ⟨_, rfl⟩

theorem twoAccounts_idle : twoAccounts.Idle :=
  ⟨rfl, rfl, rfl⟩

theorem quiet_run_copies_one_instant :
    run (step pairSetup) twoAccounts (twoWorkers []) =
        some (twoCopied [(1, 70), (2, 30)] [[(1, 70), (2, 30)]]) ∧
      Exists fun instant => instant ∈ (twoCopied [(1, 70), (2, 30)] [[(1, 70), (2, 30)]]).history ∧
        ((twoCopied [(1, 70), (2, 30)] [[(1, 70), (2, 30)]]).copied pairSetup.columns).Perm instant := by
  have reached : run (step pairSetup) twoAccounts (twoWorkers []) =
      some (twoCopied [(1, 70), (2, 30)] [[(1, 70), (2, 30)]]) := by decide
  refine ⟨reached, (copies_one_instant_iff pairSetup twoAccounts _ (twoWorkers []) twoAccounts_idle reached
    (twoCopied_complete _ _)).mpr ⟨[(1, 70), (2, 30)], by decide, ?_, by decide⟩⟩
  intro index worker found
  match index, found with
  | 0, found =>
      cases found
      exact ⟨[(1, 70), (2, 30)], by decide, List.Perm.refl _⟩
  | 1, found =>
      cases found
      exact ⟨[(1, 70), (2, 30)], by decide, List.Perm.refl _⟩

/-- An amount is moved from the second account to the first after the first has
been copied: the copy has neither state of the two accounts. -/
theorem transfer_between_starts_is_torn : twoAccounts.Idle ∧
    let last := twoCopied [(1, 90), (2, 10)] [[(1, 70), (2, 30)], [(1, 90), (2, 10)]]
    run (step pairSetup) twoAccounts (twoWorkers [.commit [(1, 90), (2, 10)]]) = some last ∧
      last.Complete ∧ last.copied pairSetup.columns = [(1, 70), (2, 10)] ∧
        ¬ Exists fun instant => instant ∈ last.history ∧ (last.copied pairSetup.columns).Perm instant := by
  refine ⟨twoAccounts_idle, by decide, twoCopied_complete _ _, by decide, ?_⟩
  rintro ⟨instant, member, same⟩
  rcases List.mem_cons.mp member with rfl | second
  · exact absurd same (by decide)
  · rw [List.mem_singleton.mp second] at same
    exact absurd same (by decide)

end SnapshotCopies
end WarehouseSync

import WarehouseSync.Extract.Incremental
import WarehouseSync.Library.Transition
import WarehouseSync.Load.Merge
import WarehouseSync.Orchestration.BootstrapJob

namespace WarehouseSync
namespace TableSync

open BootstrapJob Chunker CopyWorker Incremental KeyedRows Merge Schema Tables Transition Watermarks

/-!
# One table under both jobs (`bootstrap_job.py`, `incremental_job.py`)

The source keeps committing while a bootstrap run and any number of incremental
ticks work on the same lake table.  Nothing serialises the jobs, so every point
at which they read or write something shared is a step of its own: looking the
table up and creating it, reading a chunk or a window, committing a chunk,
merging one batch, seeding and advancing the watermark.  Failures leave the job
at any point; an op that is retried starts over.

The column list of the source does not change here, so the table is never
recreated for its partition spec.  A commit on a stale table handle raises,
which is one of the failures.
-/

universe u

/-- A version of a source row.  `commit` numbers the source commit that wrote it,
and is not a column: it only serves to say which commits a tick could see. -/
structure Version (δ : Type u) where
  id : Int
  updatedAt : Option Int
  commit : Nat
  data : δ
deriving DecidableEq

variable {δ : Type u}

def Version.key (version : Version δ) : Option Int :=
  some version.id

def watermarkColumns : WatermarkColumns (Version δ) :=
  { watermark := Version.updatedAt, id := Version.id }

def stagedColumns : StagedColumns (Version δ) Int Int :=
  { id := some Version.key, updatedAt := some Version.updatedAt }

/-- The table, the settings and what the planner asks the database about it.  All of
it is fixed for a run of the system, in which only the rows change. -/
structure Pipeline (δ : Type u) where
  kind : WatermarkKind
  settings : IncrementalSettings
  batchRows : Nat
  cfg : TableConfig
  copySettings : Settings
  columns : List Column
  accessors : SourceColumns (Version δ)
  hasLeadingIndex : Bool
  approxRows : Int

def Pipeline.plan (pipe : Pipeline δ) (rows : List (Version δ)) : Option (List Chunk) :=
  planChunks pipe.cfg pipe.copySettings
    { columns := pipe.columns, accessors := pipe.accessors, rows := rows
      hasLeadingIndex := pipe.hasLeadingIndex, approxRows := pipe.approxRows }

/-- An attempt at a chunk; the last two states differ in the DONE marker.  Between
them the attempt may be retried.  That `add_files` would then refuse its files is
left out here, so there are more runs than the code has. -/
inductive CopyState (δ : Type u) where
  | waiting
  | extracted (rows : List (Version δ))
  | committed
  | finished
deriving DecidableEq

def CopyState.isFinished : CopyState δ -> Bool
  | .finished => true
  | _ => false

structure ChunkCopy (δ : Type u) where
  chunk : Chunk
  state : CopyState δ
deriving DecidableEq

/-- The bootstrap of the table, by the steps at which other writers may come in
between.  The plan and the rows of a chunk are read at different instants of the
source. -/
inductive Boot (δ : Type u) where
  | notStarted
  | loaded (found : Bool)
  | created
  | copying (copies : List (ChunkCopy δ))
  | seeding (greatest : Int)
  | finished
deriving DecidableEq

/-- A tick that has read its window.  `asOf` and `hi` remember what was visible to
it and the upper bound it used; the code keeps neither, and no step depends on them.
-/
structure Merging (δ : Type u) where
  asOf : Nat
  hi : Option Int
  pending : List (List (Version δ))
  watermark : Mark
deriving DecidableEq

/-- An incremental run of the table, between two of its requests.  The watermark is
read before the window, so another tick may advance it in between. -/
inductive Tick (δ : Type u) where
  | loaded (found : Bool)
  | created
  | reading (now : Int) (wm : Mark)
  | merging (window : Merging δ)
deriving DecidableEq

/-- A successful tick, after its watermark was advanced.  It is on record for what
is said about it: every version that it could see has to be in the lake from then
on. -/
structure FinishedTick where
  asOf : Nat
  hi : Option Int
deriving DecidableEq, Repr

/-- The source, the lake table and the jobs over both.  `lastRead` is the clock when
the source was last read for a watermark, which is the instant that later writes
have to be compared with. -/
structure World (δ : Type u) where
  clock : Int
  commits : Nat
  source : List (Version δ)
  table : Option (List (Version δ))
  watermark : Option Mark
  boot : Boot δ
  ticks : List (Tick δ)
  finished : List FinishedTick
  lastRead : Int
deriving DecidableEq

def World.lake (world : World δ) : List (Version δ) :=
  world.table.getD []

/-- What `get_watermark` returns. -/
def World.mark (world : World δ) : Mark :=
  world.watermark.getD Mark.initial

theorem World.lake_eq {world : World δ} {lake : List (Version δ)} (present : world.table = some lake) :
    world.lake = lake := by
  rw [World.lake, present]
  rfl

theorem World.mark_eq_initial {world : World δ} (none : world.watermark = none) :
    world.mark = Mark.initial := by
  rw [World.mark, none]
  rfl

inductive SourceEvent (δ : Type u) where
  | advanceClock (clock : Int)
  | write (id : Int) (updatedAt : Option Int) (data : δ)
  | delete (id : Int)
deriving DecidableEq

/-- A commit of the source, which becomes visible as a whole.  The time in
`updated_at` is up to whoever writes, so it may lie long before the commit or after
it. -/
def stepSource (world : World δ) : SourceEvent δ -> Option (World δ)
  | .advanceClock clock => if world.clock ≤ clock then some { world with clock := clock } else none
  | .write id updatedAt data => some { world with
      commits := world.commits + 1
      source := world.source.filter (fun version => decide (version.id ≠ id)) ++
        [{ id := id, updatedAt := updatedAt, commit := world.commits, data := data }] }
  | .delete id => some { world with
      commits := world.commits + 1
      source := world.source.filter (fun version => decide (version.id ≠ id)) }

/-- The second half of `create_or_get_table`: a table that was not found is
created, and if there is one by now its entry is dropped first. -/
def World.createTable (world : World δ) (found : Bool) : World δ :=
  if found = true then world else { world with table := some [] }

inductive CopyEvent where
  | extract
  | commit
  | markDone
  | retry
deriving DecidableEq, Repr

/-- One step of `extract_chunk_op`.  The rows of a chunk's files are the rows it
selects, in the order of the COPY.  A retry extracts anew, so it may find other rows
than the attempt before it. -/
def stepCopy (pipe : Pipeline δ) (world : World δ) (copy : ChunkCopy δ) :
    CopyEvent -> Option (Option (List (Version δ)) × ChunkCopy δ)
  | .extract =>
      match copy.state with
      | .waiting => some (world.table,
          { copy with state := .extracted (world.source.filter (copy.chunk.selects pipe.accessors)) })
      | _ => none
  | .commit =>
      match copy.state with
      | .extracted rows =>
          world.table.map (fun lake => (some (lake ++ rows), { copy with state := .committed }))
      | _ => none
  | .markDone =>
      match copy.state with
      | .committed => some (world.table, { copy with state := .finished })
      | _ => none
  | .retry =>
      if copy.state.isFinished = true then none else some (world.table, { copy with state := .waiting })

inductive BootEvent where
  | load
  | create
  | plan
  | copy (index : Nat) (event : CopyEvent)
  | seedRead
  | seedStore
  | seedSkip
deriving DecidableEq, Repr

/-- The first query of `seed_watermark`.  Rows without an `updated_at` do not count,
as they do not for `max` in SQL. -/
def greatestValue (rows : List (Version δ)) : Option Int :=
  (rows.filterMap Version.updatedAt).max?

/-- The second query: the greatest id of the rows with this value, or 0. -/
def greatestId (rows : List (Version δ)) (value : Int) : Int :=
  (((rows.filter (fun version => decide (version.updatedAt = some value))).map Version.id).max?).getD 0

def allFinished (copies : List (ChunkCopy δ)) : Bool :=
  copies.all (fun copy => copy.state.isFinished)

/-- The step of the run.  Seeding is best-effort: whatever it raises is logged, so
the run may finish without a watermark.  The seed is read after the last chunk, when
the source may have rows that no chunk has copied. -/
def stepBoot (pipe : Pipeline δ) (world : World δ) : BootEvent -> Option (World δ)
  | .load =>
      match world.boot with
      | .notStarted => some { world with boot := .loaded world.table.isSome }
      | _ => none
  | .create =>
      match world.boot with
      | .loaded found => some { world.createTable found with boot := .created }
      | _ => none
  | .plan =>
      match world.boot with
      | .created => (pipe.plan world.source).map (fun chunks =>
          { world with boot := .copying (chunks.map (fun chunk => { chunk := chunk, state := .waiting })) })
      | _ => none
  | .copy index event =>
      match world.boot with
      | .copying copies => (copies[index]?).bind (fun copy =>
          (stepCopy pipe world copy event).map (fun after =>
            { world with table := after.1, boot := .copying (copies.set index after.2) }))
      | _ => none
  | .seedRead =>
      match world.boot with
      | .copying copies =>
          if allFinished copies = true ∧ copies.length ≠ 0 then
            match greatestValue world.source with
            | some greatest => some { world with boot := .seeding greatest, lastRead := world.clock }
            | none => some { world with boot := .finished }
          else none
      | _ => none
  | .seedStore =>
      match world.boot with
      | .seeding greatest => some { world with
          watermark := some (Mark.advance world.watermark
            { value := greatest, lastId := greatestId world.source greatest })
          boot := .finished }
      | _ => none
  | .seedSkip =>
      match world.boot with
      | .copying copies => if allFinished copies = true then some { world with boot := .finished } else none
      | .seeding _ => some { world with boot := .finished }
      | _ => none

/-! ## Incremental ticks -/

inductive TickEvent where
  | create
  | read
  | extract
  | merge
  | advance
  | fail
deriving DecidableEq, Repr

/-- The table after the next batch of `merge_parquet_batched`.  It is the function
of the load layer at one batch, so what is proved there about batches applies to
every step here. -/
def mergeInto (lake batch : List (Version δ)) : List (Version δ) :=
  (mergeBatch stagedColumns id Version.key { lake := lake, rowsWritten := 0, batches := 0 } batch).lake

/-- A tick that reads its window now.  The query and its upper bound use the clock
of the moment at which the tick began to read, not that of the query. -/
def extractWindow (pipe : Pipeline δ) (world : World δ) (now : Int) (wm : Mark) : Merging δ :=
  let extraction := runIncremental watermarkColumns pipe.settings pipe.kind now wm world.source
  { asOf := world.commits
    hi := upperBound pipe.settings now pipe.kind
    pending := Splitting.batches pipe.batchRows extraction.rows
    watermark := extraction.watermark }

/-- The step of `incremental_one_table`; a tick without a next state has ended.  It
may fail in any state, and then leaves the batches that it has merged and the
watermark as it was. -/
def stepTick (pipe : Pipeline δ) (world : World δ) (tick : Tick δ) :
    TickEvent -> Option (World δ × Option (Tick δ))
  | .create =>
      match tick with
      | .loaded found => some (world.createTable found, some .created)
      | _ => none
  | .read =>
      match tick with
      | .created => some (world, some (.reading world.clock world.mark))
      | _ => none
  | .extract =>
      match tick with
      | .reading now wm => some ({ world with lastRead := world.clock },
          some (.merging (extractWindow pipe world now wm)))
      | _ => none
  | .merge =>
      match tick with
      | .merging window =>
          match window.pending, world.table with
          | batch :: rest, some lake => some ({ world with table := some (mergeInto lake batch) },
              some (.merging { window with pending := rest }))
          | _, _ => none
      | _ => none
  | .advance =>
      match tick with
      | .merging window =>
          match window.pending with
          | [] => some ({ world with
              watermark := some (Mark.advance world.watermark window.watermark)
              finished := { asOf := window.asOf, hi := window.hi } :: world.finished }, none)
          | _ :: _ => none
      | _ => none
  | .fail => some (world, none)

/-- One step of the source or of a job.  Ticks are addressed by their place in the
list, so any number of them may be under way at once. -/
inductive Event (δ : Type u) where
  | source (event : SourceEvent δ)
  | boot (event : BootEvent)
  | beginTick
  | tick (index : Nat) (event : TickEvent)
deriving DecidableEq

/-- One step of the system.  A tick begins by looking the table up, which is already
a read: whether it is found may be out of date when the tick acts on it. -/
def step (pipe : Pipeline δ) (world : World δ) : Event δ -> Option (World δ)
  | .source event => stepSource world event
  | .boot event => stepBoot pipe world event
  | .beginTick => some { world with ticks := world.ticks ++ [.loaded world.table.isSome] }
  | .tick index event => (world.ticks[index]?).bind (fun tick =>
      (stepTick pipe world tick event).map (fun after =>
        { after.1 with
          ticks := match after.2 with
            | some next => world.ticks.set index next
            | none => world.ticks.eraseIdx index }))

/-! ## What a step can do -/

variable {pipe : Pipeline δ} {world after : World δ}

/-- Time passes, a row is written, or one is deleted. -/
theorem stepSource_cases {event : SourceEvent δ} (taken : stepSource world event = some after) :
    (Exists fun clock : Int => event = .advanceClock clock ∧ world.clock ≤ clock ∧
      after = { world with clock := clock }) ∨
    (Exists fun id : Int => Exists fun updatedAt : Option Int => Exists fun data : δ =>
      event = .write id updatedAt data ∧ after = { world with
        commits := world.commits + 1
        source := world.source.filter (fun version => decide (version.id ≠ id)) ++
          [{ id := id, updatedAt := updatedAt, commit := world.commits, data := data }] }) ∨
    (Exists fun id : Int => event = .delete id ∧ after = { world with
      commits := world.commits + 1
      source := world.source.filter (fun version => decide (version.id ≠ id)) }) := by
  cases event with
  | advanceClock clock =>
      simp only [stepSource] at taken
      split at taken
      · rename_i later
        cases taken
        exact Or.inl ⟨clock, rfl, later, rfl⟩
      · cases taken
  | write id updatedAt data =>
      cases taken
      exact Or.inr (Or.inl ⟨id, updatedAt, data, rfl, rfl⟩)
  | delete id =>
      cases taken
      exact Or.inr (Or.inr ⟨id, rfl, rfl⟩)

/-- Creating the table changes nothing but the table. -/
theorem createTable_eq (world : World δ) (found : Bool) :
    Exists fun table : Option (List (Version δ)) =>
      (table = world.table ∨ table = some []) ∧ world.createTable found = { world with table := table } := by
  unfold World.createTable
  split
  · exact ⟨world.table, Or.inl rfl, rfl⟩
  · exact ⟨some [], Or.inr rfl, rfl⟩

/-- A table is created only where no row is lost by it. -/
theorem createTable_keeps {found : Bool} (known : found = true ∨ world.lake = []) :
    Exists fun table : Option (List (Version δ)) => world.createTable found = { world with table := table } ∧
      forall version, version ∈ world.lake -> version ∈ table.getD [] := by
  unfold World.createTable
  split
  · exact ⟨world.table, rfl, fun _ member => member⟩
  · rename_i missing
    refine ⟨some [], rfl, fun version member => ?_⟩
    rw [known.resolve_left missing] at member
    exact member

/-- The six steps of a tick. -/
theorem stepTick_cases {tick : Tick δ} {event : TickEvent} {next : World δ × Option (Tick δ)}
    (taken : stepTick pipe world tick event = some next) :
    (Exists fun found : Bool => tick = .loaded found ∧ next = (world.createTable found, some .created)) ∨
    (tick = .created ∧ next = (world, some (.reading world.clock world.mark))) ∨
    (Exists fun now : Int => Exists fun wm : Mark => tick = .reading now wm ∧
      next = ({ world with lastRead := world.clock }, some (.merging (extractWindow pipe world now wm)))) ∨
    (Exists fun window : Merging δ => Exists fun batch => Exists fun rest => Exists fun lake =>
      tick = .merging window ∧ window.pending = batch :: rest ∧ world.table = some lake ∧
        next = ({ world with table := some (mergeInto lake batch) },
          some (.merging { window with pending := rest }))) ∨
    (Exists fun window : Merging δ => tick = .merging window ∧ window.pending = [] ∧
      next = ({ world with
        watermark := some (Mark.advance world.watermark window.watermark)
        finished := { asOf := window.asOf, hi := window.hi } :: world.finished }, none)) ∨
    next = (world, none) := by
  cases event with
  | create =>
      cases tick with
      | loaded found =>
          cases taken
          exact Or.inl ⟨found, rfl, rfl⟩
      | created => cases taken
      | reading now wm => cases taken
      | merging window => cases taken
  | read =>
      cases tick with
      | created =>
          cases taken
          exact Or.inr (Or.inl ⟨rfl, rfl⟩)
      | loaded found => cases taken
      | reading now wm => cases taken
      | merging window => cases taken
  | extract =>
      cases tick with
      | reading now wm =>
          cases taken
          exact Or.inr (Or.inr (Or.inl ⟨now, wm, rfl, rfl⟩))
      | loaded found => cases taken
      | created => cases taken
      | merging window => cases taken
  | merge =>
      cases tick with
      | merging window =>
          simp only [stepTick] at taken
          split at taken
          · rename_i batch rest lake pending present
            cases taken
            exact Or.inr (Or.inr (Or.inr (Or.inl ⟨window, batch, rest, lake, rfl, pending, present, rfl⟩)))
          · cases taken
      | loaded found => cases taken
      | created => cases taken
      | reading now wm => cases taken
  | advance =>
      cases tick with
      | merging window =>
          simp only [stepTick] at taken
          split at taken
          · rename_i pending
            cases taken
            exact Or.inr (Or.inr (Or.inr (Or.inr (Or.inl ⟨window, rfl, pending, rfl⟩))))
          · cases taken
      | loaded found => cases taken
      | created => cases taken
      | reading now wm => cases taken
  | fail =>
      cases taken
      exact Or.inr (Or.inr (Or.inr (Or.inr (Or.inr rfl))))

/-- The three steps of an attempt at a chunk, and starting over. -/
theorem stepCopy_cases {copy : ChunkCopy δ} {event : CopyEvent}
    {next : Option (List (Version δ)) × ChunkCopy δ} (taken : stepCopy pipe world copy event = some next) :
    next = (world.table,
      { copy with state := .extracted (world.source.filter (copy.chunk.selects pipe.accessors)) }) ∨
    (Exists fun rows => Exists fun lake => event = .commit ∧ copy.state = .extracted rows ∧
      world.table = some lake ∧ next = (some (lake ++ rows), { copy with state := .committed })) ∨
    next = (world.table, { copy with state := .finished }) ∨
    next = (world.table, { copy with state := .waiting }) := by
  cases event with
  | extract =>
      simp only [stepCopy] at taken
      split at taken
      · cases taken
        exact Or.inl rfl
      · cases taken
  | commit =>
      simp only [stepCopy] at taken
      split at taken
      · rename_i rows extracted
        rcases Option.map_eq_some_iff.mp taken with ⟨lake, present, rfl⟩
        exact Or.inr (Or.inl ⟨rows, lake, rfl, extracted, present, rfl⟩)
      · cases taken
  | markDone =>
      simp only [stepCopy] at taken
      split at taken
      · cases taken
        exact Or.inr (Or.inr (Or.inl rfl))
      · cases taken
  | retry =>
      simp only [stepCopy] at taken
      split at taken
      · cases taken
      · cases taken
        exact Or.inr (Or.inr (Or.inr rfl))

/-- The steps of a bootstrap run; it ends with a seed or without. -/
theorem stepBoot_cases {event : BootEvent} (taken : stepBoot pipe world event = some after) :
    (world.boot = .notStarted ∧ after = { world with boot := .loaded world.table.isSome }) ∨
    (Exists fun found : Bool => world.boot = .loaded found ∧
      after = { world.createTable found with boot := .created }) ∨
    (Exists fun chunks : List Chunk => world.boot = .created ∧ after = { world with
      boot := .copying (chunks.map (fun chunk => { chunk := chunk, state := .waiting })) }) ∨
    (Exists fun copies => Exists fun index => Exists fun copy => Exists fun copyEvent => Exists fun next =>
      event = .copy index copyEvent ∧ world.boot = .copying copies ∧ copies[index]? = some copy ∧
        stepCopy pipe world copy copyEvent = some next ∧
        after = { world with table := next.1, boot := .copying (copies.set index next.2) }) ∨
    (Exists fun greatest : Int => greatestValue world.source = some greatest ∧
      world.boot ≠ .finished ∧
      after = { world with boot := .seeding greatest, lastRead := world.clock }) ∨
    (Exists fun greatest : Int => event = .seedStore ∧ world.boot = .seeding greatest ∧ after = { world with
      watermark := some (Mark.advance world.watermark
        { value := greatest, lastId := greatestId world.source greatest })
      boot := .finished }) ∨
    (world.boot ≠ .finished ∧ after = { world with boot := .finished }) := by
  cases event with
  | load =>
      simp only [stepBoot] at taken
      split at taken
      · rename_i idle
        cases taken
        exact Or.inl ⟨idle, rfl⟩
      · cases taken
  | create =>
      simp only [stepBoot] at taken
      split at taken
      · rename_i found loaded
        cases taken
        exact Or.inr (Or.inl ⟨found, loaded, rfl⟩)
      · cases taken
  | plan =>
      simp only [stepBoot] at taken
      split at taken
      · rename_i created
        rcases Option.map_eq_some_iff.mp taken with ⟨chunks, _, rfl⟩
        exact Or.inr (Or.inr (Or.inl ⟨chunks, created, rfl⟩))
      · cases taken
  | copy index copyEvent =>
      simp only [stepBoot] at taken
      split at taken
      · rename_i copies copying
        rcases Option.bind_eq_some_iff.mp taken with ⟨copy, found, stepped⟩
        rcases Option.map_eq_some_iff.mp stepped with ⟨next, moved, rfl⟩
        exact Or.inr (Or.inr (Or.inr (Or.inl
          ⟨copies, index, copy, copyEvent, next, rfl, copying, found, moved, rfl⟩)))
      · cases taken
  | seedRead =>
      simp only [stepBoot] at taken
      split at taken
      · rename_i copies copying
        have running : world.boot ≠ .finished := by
          rw [copying]
          rintro ⟨⟩
        split at taken
        · split at taken
          · rename_i greatest found
            cases taken
            exact Or.inr (Or.inr (Or.inr (Or.inr (Or.inl ⟨greatest, found, running, rfl⟩))))
          · cases taken
            exact Or.inr (Or.inr (Or.inr (Or.inr (Or.inr (Or.inr ⟨running, rfl⟩)))))
        · cases taken
      · cases taken
  | seedStore =>
      simp only [stepBoot] at taken
      split at taken
      · rename_i greatest seeding
        cases taken
        exact Or.inr (Or.inr (Or.inr (Or.inr (Or.inr (Or.inl ⟨greatest, rfl, seeding, rfl⟩)))))
      · cases taken
  | seedSkip =>
      have running : world.boot ≠ .finished := by
        intro ended
        simp only [stepBoot, ended] at taken
        cases taken
      simp only [stepBoot] at taken
      split at taken
      · split at taken
        · cases taken
          exact Or.inr (Or.inr (Or.inr (Or.inr (Or.inr (Or.inr ⟨running, rfl⟩)))))
        · cases taken
      · cases taken
        exact Or.inr (Or.inr (Or.inr (Or.inr (Or.inr (Or.inr ⟨running, rfl⟩)))))
      · cases taken

theorem stepBoot_finished (ended : world.boot = .finished) (event : BootEvent) :
    stepBoot pipe world event = none := by
  cases event with
  | load => simp only [stepBoot, ended]
  | create => simp only [stepBoot, ended]
  | plan => simp only [stepBoot, ended]
  | copy index copyEvent => simp only [stepBoot, ended]
  | seedRead => simp only [stepBoot, ended]
  | seedStore => simp only [stepBoot, ended]
  | seedSkip => simp only [stepBoot, ended]

theorem mergeInto_eq (lake batch : List (Version δ)) (nonempty : batch.length ≠ 0) :
    mergeInto lake batch =
      upsert Version.key lake (dedupeLatest Version.key Version.updatedAt batch) := by
  unfold mergeInto mergeBatch
  rw [if_neg nonempty]
  simp [writtenRows, StagedColumns.dedupe, stagedColumns]

/-- A version of a batch without repeated ids is in the lake afterwards. -/
theorem mem_mergeInto_of_mem {lake batch : List (Version δ)} (unique : UniqueKeys Version.key batch)
    {version : Version δ} (member : version ∈ batch) : version ∈ mergeInto lake batch := by
  have nonempty : batch.length ≠ 0 := by
    intro empty
    rw [List.length_eq_zero_iff.mp empty] at member
    cases member
  have kept : version ∈ dedupeLatest Version.key Version.updatedAt batch :=
    mem_dedupeLatest_of_uniqueKeys unique member rfl
  have listed : version.id ∈ keys Version.key (dedupeLatest Version.key Version.updatedAt batch) :=
    mem_keys.mpr ⟨version, kept, rfl⟩
  have here : version ∈ rowsAt Version.key (some version.id) (mergeInto lake batch) := by
    rw [mergeInto_eq lake batch nonempty, rowsAt_upsert_some, if_pos listed]
    exact mem_rowsAt.mpr ⟨kept, rfl⟩
  exact (mem_rowsAt.mp here).1

/-- A lake version stays unless the batch has its id. -/
theorem mem_mergeInto_of_absent {lake batch : List (Version δ)} {version : Version δ}
    (member : version ∈ lake) (absent : forall other, other ∈ batch -> other.id ≠ version.id) :
    version ∈ mergeInto lake batch := by
  by_cases empty : batch.length = 0
  · unfold mergeInto mergeBatch
    rw [if_pos empty]
    exact member
  · have unlisted : version.id ∉ keys Version.key (dedupeLatest Version.key Version.updatedAt batch) := by
      rw [mem_keys_dedupeLatest, mem_keys]
      rintro ⟨other, listed, same⟩
      exact absent other listed (Option.some.inj same)
    have here : version ∈ rowsAt Version.key (some version.id) (mergeInto lake batch) := by
      rw [mergeInto_eq lake batch empty, rowsAt_upsert_some, if_neg unlisted]
      exact mem_rowsAt.mpr ⟨member, rfl⟩
    exact (mem_rowsAt.mp here).1

/-- A version that is there or in the batch is there afterwards, unless the
batch has another version of it. -/
theorem mem_mergeInto_of_agree {lake batch : List (Version δ)} (unique : UniqueKeys Version.key batch)
    {version : Version δ} (agree : forall other, other ∈ batch -> version.id = other.id -> version = other)
    (held : version ∈ lake ∨ version ∈ batch) : version ∈ mergeInto lake batch := by
  by_cases listed : version ∈ batch
  · exact mem_mergeInto_of_mem unique listed
  · apply mem_mergeInto_of_absent (held.resolve_right listed)
    intro other inBatch same
    exact listed (agree other inBatch same.symm ▸ inBatch)

/-- A version that is in the lake or in the next batch of a window is in the lake
after that batch, if the window holds no other version of it. -/
theorem mem_mergeInto_pending {window : Merging δ} (once : UniqueKeys Version.key window.pending.flatten)
    {version : Version δ} (agree : forall other, other ∈ window.pending.flatten -> version.id = other.id ->
      version = other) {batch : List (Version δ)} {rest : List (List (Version δ))}
    {lake : List (Version δ)} (pending : window.pending = batch :: rest) (present : world.table = some lake)
    (merged : version ∈ world.lake ∨ version ∈ batch) : version ∈ mergeInto lake batch := by
  rw [pending, List.flatten_cons] at once agree
  apply mem_mergeInto_of_agree (uniqueKeys_append.mp once).1
  · exact fun other inBatch => agree other (List.mem_append_left _ inBatch)
  · exact World.lake_eq present ▸ merged

theorem uniqueKeys_mergeInto {lake : List (Version δ)} (unique : UniqueKeys Version.key lake)
    (batch : List (Version δ)) : UniqueKeys Version.key (mergeInto lake batch) := by
  by_cases empty : batch.length = 0
  · unfold mergeInto mergeBatch
    rw [if_pos empty]
    exact unique
  · rw [mergeInto_eq lake batch empty]
    exact Merge.UniqueKeys.upsert unique (uniqueKeys_dedupeLatest _ _ _)

/-- A new version of a row whose other versions are gone. -/
theorem uniqueKeys_insert {rows : List (Version δ)} (unique : UniqueKeys Version.key rows)
    {version : Version δ} (fresh : forall other, other ∈ rows -> other.id ≠ version.id) :
    UniqueKeys Version.key (rows ++ [version]) := by
  refine uniqueKeys_append.mpr ⟨unique, List.nodup_singleton _, ?_⟩
  intro id listed new
  rcases mem_keys.mp listed with ⟨other, member, carries⟩
  have same : id = version.id := List.mem_singleton.mp new
  exact fresh other member (same ▸ Option.some.inj carries)

/-- A write replaces the row of its id. -/
theorem uniqueKeys_write {rows : List (Version δ)} (unique : UniqueKeys Version.key rows)
    (version : Version δ) :
    UniqueKeys Version.key (rows.filter (fun other => decide (other.id ≠ version.id)) ++ [version]) :=
  uniqueKeys_insert (unique.sublist List.filter_sublist)
    (fun _ member => of_decide_eq_true (List.mem_filter.mp member).2)

/-- Two seconds of overlap and one of safety gap; one chunk. -/
def samplePipeline : Pipeline Nat :=
  { kind := .timestampTz, settings := { overlapSeconds := 2, gapSeconds := 1 }, batchRows := 2
    cfg := { schema := "public", table := "events", partitionBy := [], watermarkColumn := some "updated_at"
             pk := "id", supportsParallelChunking := false }
    copySettings := { extractRowsPerChunk := 10, extractRowGroupRows := 10 }
    columns := [], accessors := { id := fun version => some version.id, timestamp := fun _ _ _ => none }
    hasLeadingIndex := false, approxRows := 0 }

/-- Ten seconds after the epoch, with a row that was written at second five. -/
def sampleWorld : World Nat :=
  { clock := 10000000, commits := 1
    source := [{ id := 1, updatedAt := some 5000000, commit := 0, data := 0 }]
    table := none, watermark := none, boot := .notStarted, ticks := [], finished := [], lastRead := 0 }

/-- A tick from its beginning to its end, with this many batches. -/
def wholeTick (batches : Nat) : List (Event Nat) :=
  [.beginTick, .tick 0 .create, .tick 0 .read, .tick 0 .extract] ++
    List.replicate batches (.tick 0 .merge) ++ [.tick 0 .advance]

end TableSync
end WarehouseSync

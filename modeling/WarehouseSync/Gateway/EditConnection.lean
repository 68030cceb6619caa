import WarehouseSync.Gateway.WipeRace
import WarehouseSync.Gateway.WipeScope
import WarehouseSync.Load.CreationRace

namespace WarehouseSync
namespace EditConnection

open App ConfigStore CreateTable Transition
open Chunker (Chunk)
open Incremental (Mark runIncremental)
open KeyedRows Merge
open TableSync (Version Pipeline mergeInto greatestValue greatestId watermarkColumns)
open TokenScope (WellFormed)
open WipeRace (AtOrBelow)

/-!
# Editing a connection between its runs (`gateway/app.py`)

A watermark is stored under the id of the connection and the name of the object.
The lake table is looked up in the catalog under the namespace of the
connection, which `update_connection` may change like every other field.  The
bucket and the keys, also those of a cached catalog, only say where a new table
is put and what can be read.

Runs and edits follow one another here.  A run reads the connection as it is
then, meets any error, and may raise at any point.
-/

universe u

variable {δ : Type u}

/-- An object that a connection syncs. -/
structure Synced where
  connectionId : Int
  schema : String
  name : String
deriving DecidableEq, Repr

/-- The key of its watermark. -/
def Synced.key (object : Synced) : Int × String :=
  (object.connectionId, object.schema ++ "." ++ object.name)

/-- The catalog identifier of its lake table. -/
def Synced.table (object : Synced) (icebergNamespace : String) : String × String :=
  (icebergNamespace, object.schema ++ "__" ++ object.name)

/-- Of the store only the connections matter.  `merged` has the rows that the runs
of an object have written so far, in the version that was written last.  It belongs
to the object and not to a table, so it outlives an edit that moves the object to
another namespace. -/
structure World (δ : Type u) where
  store : Store
  catalogs : String × String -> Catalog (Version δ)
  watermarks : Int × String -> Option Mark
  merged : Synced -> List (Version δ)

/-- The rows that a lake table holds. -/
def World.rows (world : World δ) (table : String × String) : List (Version δ) :=
  ((world.catalogs table).entry.map (fun entry => entry.table.rows)).getD []

/-- What the two kinds of run have in common: the connection they are for, how the
table is synced, and what `create_or_get_table` meets. -/
structure Run (δ : Type u) where
  connectionId : Int
  pipe : Pipeline δ
  faults : Faults

def Run.object (run : Run δ) : Synced :=
  { connectionId := run.connectionId, schema := run.pipe.cfg.schema, name := run.pipe.cfg.table }

def Run.request (run : Run δ) : CreateTable.Request :=
  { schema := run.pipe.columns.map (fun column => column.name), partitionBy := run.pipe.cfg.partitionBy }

/-- A run of `incremental_one_table` with the rows that its window is taken from.
It may raise after some batches, and then its watermark is not stored. -/
structure Tick (δ : Type u) where
  run : Run δ
  now : Int
  source : List (Version δ)
  raisesAfter : Option Nat

/-- A run of `bootstrap_table_job`: the rows that the planner sees, the chunks
that are committed with the rows that each attempt sees, and what the two
queries of `seed_watermark` see. -/
structure Bootstrap (δ : Type u) where
  run : Run δ
  planned : List (Version δ)
  copies : List (Nat × List (Version δ))
  seed : Option (List (Version δ) × List (Version δ))

/-- What a run does to its table, once `create_or_get_table` has returned.  Ticks
replace rows by their ids, while a bootstrap only adds. -/
inductive Work (δ : Type u) where
  | merge (batches : List (List (Version δ)))
  | append (rows : List (Version δ))

def Work.lake : Work δ -> List (Version δ) -> List (Version δ)
  | .merge batches, rows => batches.foldl mergeInto rows
  | .append copied, rows => rows ++ copied

def Work.read : Work δ -> List (Version δ)
  | .merge batches => batches.flatten
  | .append copied => copied

/-- The rows written so far, of each its last version.  For chunks that are appended
the older version is taken out here, although the table may keep it. -/
def Work.merged : Work δ -> List (Version δ) -> List (Version δ)
  | .merge batches, rows => batches.foldl mergeInto rows
  | .append copied, rows =>
      rows.filter (fun version => copied.all (fun other => other.id != version.id)) ++ copied

/-- The work of a tick and the watermark after it.  The window starts from the
stored watermark, whichever table the rows before it went to. -/
def World.incremental (world : World δ) (tick : Tick δ) : Work δ × Option Mark :=
  let pipe := tick.run.pipe
  let stored := world.watermarks tick.run.object.key
  let extraction := runIncremental watermarkColumns pipe.settings pipe.kind tick.now
    (stored.getD Mark.initial) tick.source
  let batches := Splitting.batches pipe.batchRows extraction.rows
  match tick.raisesAfter with
  | some count => (.merge (batches.take count), stored)
  | none => (.merge batches, some (Mark.advance stored extraction.watermark))

/-- The rows of a committed chunk. -/
def copied (pipe : Pipeline δ) (chunks : List Chunk) (copy : Nat × List (Version δ)) : List (Version δ) :=
  match chunks[copy.1]? with
  | none => []
  | some chunk => copy.2.filter (chunk.selects pipe.accessors)

/-- `commit_chunks` runs once every chunk is done, and does nothing without one. -/
def complete (chunks : List Chunk) (copies : List (Nat × List (Version δ))) : Bool :=
  !chunks.isEmpty && (List.range chunks.length).all (fun index => copies.any (fun copy => copy.1 == index))

/-- The watermark that `seed_watermark` stores.  Its two queries may see different
rows, since no transaction is kept over them. -/
def seeded (stored : Option Mark) : Option (List (Version δ) × List (Version δ)) -> Option Mark
  | none => stored
  | some (first, second) =>
      match greatestValue first with
      | none => stored
      | some greatest =>
          some (Mark.advance stored { value := greatest, lastId := greatestId second greatest })

/-- The work of a bootstrap and the watermark after it.  Chunks that were committed
stay in the table also when the run fails before it seeds. -/
def World.bootstrap (world : World δ) (boot : Bootstrap δ) : Work δ × Option Mark :=
  let pipe := boot.run.pipe
  let stored := world.watermarks boot.run.object.key
  match pipe.plan boot.planned with
  | none => (.append [], stored)
  | some chunks =>
      (.append (boot.copies.flatMap (copied pipe chunks)),
        if complete chunks boot.copies = true ∧ pipe.cfg.supportsIncremental = true then
          seeded stored boot.seed
        else stored)

/-- The run from the connection on.  One commit stands for all of a run.  The table
is that of the connection as it is now, whatever an earlier run has written to. -/
def World.perform (world : World δ) (run : Run δ) (outcome : Work δ × Option Mark) : World δ :=
  match world.store.getConnection run.connectionId with
  | none => world
  | some conn =>
      let table := run.object.table conn.icebergNamespace
      let done := createOrGet run.request run.faults (world.catalogs table)
      match done.2, done.1.entry with
      | .returned, some entry =>
          let lake := { entry.table with rows := outcome.1.lake entry.table.rows }
          { world with
            catalogs := Function.update world.catalogs table (done.1.swap lake)
            watermarks := Function.update world.watermarks run.object.key outcome.2
            merged := Function.update world.merged run.object (outcome.1.merged (world.merged run.object)) }
      | _, _ => { world with catalogs := Function.update world.catalogs table done.1 }

inductive Event (δ : Type u) where
  | edit (answers : Answers) (connectionId : Int) (body : ConnectionIn)
  | tick (tick : Tick δ)
  | bootstrap (boot : Bootstrap δ)

/-- An edit that is rejected is no step.  An object without a watermark column has
no ticks, as the job skips it. -/
def step (world : World δ) : Event δ -> Option (World δ)
  | .edit answers connectionId body =>
      match updateConnection answers connectionId body world.store with
      | .ok store => some { world with store := store }
      | .error _ => none
  | .tick tick =>
      if tick.run.pipe.cfg.supportsIncremental = true then
        some (world.perform tick.run (world.incremental tick))
      else some world
  | .bootstrap boot => some (world.perform boot.run (world.bootstrap boot))

/-- Nothing has been synced yet. -/
def World.start (store : Store) : World δ :=
  { store := store, catalogs := fun _ => { entry := none, written := 0, deleted := [] }
    watermarks := fun _ => none, merged := fun _ => [] }

/-- The lake table of the connection as it is now holds every row written so far
that its watermark stands for.  A later tick never reads these rows again, so what
is missing then stays missing. -/
def World.Supported (world : World δ) (object : Synced) : Prop :=
  forall conn mark, world.store.getConnection object.connectionId = some conn ->
    world.watermarks object.key = some mark -> forall version, version ∈ world.merged object ->
      AtOrBelow mark version -> version ∈ world.rows (object.table conn.icebergNamespace)

/-- The version lies beyond the watermark, or nothing is stored.  A later tick will
read it in any case. -/
def Beyond (stored : Option Mark) (version : Version δ) : Prop :=
  forall mark, stored = some mark -> ¬ AtOrBelow mark version

/-- The namespace stays, or the tables under the new one hold what the watermarks
stand for.  Only the namespace matters: an edit of anything else leaves every object
with its table. -/
def EditAllowed (world : World δ) (connectionId : Int) (icebergNamespace : String) : Prop :=
  (forall conn, world.store.getConnection connectionId = some conn -> conn.icebergNamespace = icebergNamespace) ∨
    forall object : Synced, object.connectionId = connectionId ->
      forall version, version ∈ world.merged object ->
        version ∈ world.rows (object.table icebergNamespace) ∨ Beyond (world.watermarks object.key) version

/-- No other object that has been synced has the table or the watermark of this one.
Objects whose joined names agree would write over each other. -/
def NamesApart (world : World δ) (object : Synced) : Prop :=
  forall other : Synced, other.connectionId = object.connectionId -> other ≠ object ->
    world.merged other ≠ [] -> other.schema ++ "__" ++ other.name ≠ object.schema ++ "__" ++ object.name ∧
      other.schema ++ "." ++ other.name ≠ object.schema ++ "." ++ object.name

/-- `create_or_get_table` finds the row and does not drop its table.  It is a
condition on the catalog before the run and on the faults it meets. -/
def Keeps (catalog : Catalog (Version δ)) (run : Run δ) (version : Version δ) : Prop :=
  Exists fun entry : Entry (Version δ) =>
    catalog.entry = some entry ∧ version ∈ entry.table.rows ∧ Leaves run.request run.faults entry.table

/-- Every row that the run does not find in its table, or drops with it, is read
again or lies beyond the watermark afterwards.  A run that does not get its table
reads nothing, so then the stored watermark counts. -/
def RunAllowed (world : World δ) (run : Run δ) (outcome : Work δ × Option Mark) : Prop :=
  forall conn, world.store.getConnection run.connectionId = some conn ->
    NamesApart world run.object ∧
      let catalog := world.catalogs (run.object.table conn.icebergNamespace)
      forall version, version ∈ world.merged run.object -> Keeps catalog run version ∨
        if (createOrGet run.request run.faults catalog).2 = .returned then
          (Exists fun other : Version δ => other ∈ outcome.1.read ∧ other.id = version.id) ∨
            Beyond outcome.2 version
        else Beyond (world.watermarks run.object.key) version

/-- The condition on a step, which is one on the state before it and on what the
step is given. -/
def Allowed (world : World δ) : Event δ -> Prop
  | .edit _ connectionId body => EditAllowed world connectionId body.icebergNamespace
  | .tick tick => tick.run.pipe.cfg.supportsIncremental = true ->
      RunAllowed world tick.run (world.incremental tick)
  | .bootstrap boot => RunAllowed world boot.run (world.bootstrap boot)

variable {world next : World δ} {object : Synced} {run : Run δ} {outcome : Work δ × Option Mark}

theorem supported_iff : world.Supported object ↔
    forall conn, world.store.getConnection object.connectionId = some conn ->
      forall version, version ∈ world.merged object ->
        version ∈ world.rows (object.table conn.icebergNamespace) ∨
          Beyond (world.watermarks object.key) version := by
  constructor
  · intro supported conn current version member
    refine or_iff_not_imp_left.mpr (fun absent mark stored below => ?_)
    exact absent (supported conn mark current stored version member below)
  · intro held conn mark current stored version member below
    exact (held conn current version member).resolve_right (fun beyond => beyond mark stored below)

/-- What a batch leaves was brought by it, or was there and has an id that the
batch does not have. -/
theorem mem_mergeInto_cases {rows batch : List (Version δ)} {version : Version δ}
    (member : version ∈ mergeInto rows batch) :
    (forall others, version ∈ mergeInto others batch) ∨
      (version ∈ rows ∧ forall other, other ∈ batch -> other.id ≠ version.id) := by
  by_cases empty : batch.length = 0
  · have nothing := List.length_eq_zero_iff.mp empty
    subst nothing
    exact Or.inr ⟨member, fun _ listed => by cases listed⟩
  · have here : version ∈ rowsAt Version.key (some version.id) (mergeInto rows batch) :=
      mem_rowsAt.mpr ⟨member, rfl⟩
    rw [TableSync.mergeInto_eq rows batch empty, rowsAt_upsert_some] at here
    by_cases listed : version.id ∈ keys Version.key (dedupeLatest Version.key Version.updatedAt batch)
    · rw [if_pos listed] at here
      refine Or.inl (fun others => ?_)
      have there : version ∈ rowsAt Version.key (some version.id) (mergeInto others batch) := by
        rw [TableSync.mergeInto_eq others batch empty, rowsAt_upsert_some, if_pos listed]
        exact here
      exact (mem_rowsAt.mp there).1
    · rw [if_neg listed] at here
      refine Or.inr ⟨(mem_rowsAt.mp here).1, fun other inBatch same => listed ?_⟩
      rw [mem_keys_dedupeLatest, mem_keys]
      exact ⟨other, inBatch, congrArg some same⟩

/-- The lake table has what was written last, if it had what the work does not
write again. -/
theorem mem_lake_of_merged (work : Work δ) {known rows : List (Version δ)} {version : Version δ}
    (member : version ∈ work.merged known)
    (held : version ∈ known -> version ∈ rows ∨
      Exists fun other : Version δ => other ∈ work.read ∧ other.id = version.id) :
    version ∈ work.lake rows := by
  cases work with
  | append copied =>
      rcases List.mem_append.mp member with old | new
      · rcases List.mem_filter.mp old with ⟨before, others⟩
        rcases held before with there | ⟨other, inCopy, same⟩
        · exact List.mem_append_left copied there
        · have different := List.all_eq_true.mp others other inCopy
          exact absurd same (bne_iff_ne.mp different)
      · exact List.mem_append_right rows new
  | merge batches =>
      simp only [Work.merged, Work.read, Work.lake] at member held ⊢
      induction batches generalizing known rows with
      | nil =>
          rcases held member with there | ⟨other, listed, _⟩
          · exact there
          · cases listed
      | cons batch batches ih =>
          refine ih member (fun after => ?_)
          rcases mem_mergeInto_cases after with brought | ⟨before, others⟩
          · exact Or.inl (brought rows)
          · rcases held before with there | ⟨other, listed, same⟩
            · exact Or.inl (TableSync.mem_mergeInto_of_absent there others)
            · rw [List.flatten_cons] at listed
              rcases List.mem_append.mp listed with first | later
              · exact absurd same (others other first)
              · exact Or.inr ⟨other, later, same⟩

/-- The run does not start, or raises before it has its table, or does its work. -/
theorem perform_cases (world : World δ) (run : Run δ) (outcome : Work δ × Option Mark) :
    world.perform run outcome = world ∨
      Exists fun conn : Connection => world.store.getConnection run.connectionId = some conn ∧
        let table := run.object.table conn.icebergNamespace
        let done := createOrGet run.request run.faults (world.catalogs table)
        (done.2 ≠ .returned ∧ world.perform run outcome =
          { world with catalogs := Function.update world.catalogs table done.1 }) ∨
        (done.2 = .returned ∧ Exists fun entry : Entry (Version δ) => done.1.entry = some entry ∧
          world.perform run outcome = { world with
            catalogs := Function.update world.catalogs table
              (done.1.swap { entry.table with rows := outcome.1.lake entry.table.rows })
            watermarks := Function.update world.watermarks run.object.key outcome.2
            merged := Function.update world.merged run.object
              (outcome.1.merged (world.merged run.object)) }) := by
  unfold World.perform
  cases found : world.store.getConnection run.connectionId with
  | none => exact Or.inl rfl
  | some conn =>
      refine Or.inr ⟨conn, rfl, ?_⟩
      simp only
      by_cases returned : (createOrGet run.request run.faults
          (world.catalogs (run.object.table conn.icebergNamespace))).2 = .returned
      · rcases Option.isSome_iff_exists.mp (registered_of_returned _ _ _ returned) with ⟨entry, present⟩
        refine Or.inr ⟨returned, entry, present, ?_⟩
        simp only [returned, present]
      · refine Or.inl ⟨returned, ?_⟩
        split
        · rename_i entry done present
          exact absurd done returned
        · rfl

/-! ## The invariant -/

/-- The catalog of every table is as the helper leaves it.  No metadata object is
deleted by an edit or by a run. -/
def Sound (world : World δ) : Prop :=
  WellFormed world.store ∧ forall table, (world.catalogs table).Consistent ∧ (world.catalogs table).deleted = []

theorem Sound.update (sound : Sound world) {table : String × String} {catalog : Catalog (Version δ)}
    (consistent : catalog.Consistent) (kept : catalog.deleted = []) (other : String × String) :
    (Function.update world.catalogs table catalog other).Consistent ∧
      (Function.update world.catalogs table catalog other).deleted = [] := by
  by_cases here : other = table
  · subst here
    rw [Function.update_self]
    exact ⟨consistent, kept⟩
  · rw [Function.update_of_ne here]
    exact sound.2 other

theorem consistent_swap (catalog : Catalog (Version δ)) (lake : IcebergWriter.LakeTable (Version δ)) :
    (catalog.swap lake).Consistent := by
  rintro entry ⟨⟩
  exact Nat.lt_succ_self _

theorem Sound.perform (sound : Sound world) (run : Run δ) (outcome : Work δ × Option Mark) :
    Sound (world.perform run outcome) := by
  rcases perform_cases world run outcome with same | ⟨conn, _, ⟨_, same⟩ | ⟨_, entry, _, same⟩⟩
  · rw [same]
    exact sound
  · rw [same]
    refine ⟨sound.1, sound.update ((sound.2 _).1.createOrGet _ _) ?_⟩
    rw [deleted_createOrGet, (sound.2 _).2]
  · rw [same]
    refine ⟨sound.1, sound.update (consistent_swap _ _) ?_⟩
    rw [Catalog.swap, deleted_createOrGet, (sound.2 _).2]

theorem updateConnection_columns {answers : Answers} {connectionId : Int} {body : ConnectionIn}
    {store after : Store} (done : updateConnection answers connectionId body store = .ok after) :
    Exists fun conn : Connection => Exists fun columns : Store.ConnectionColumns =>
      store.getConnection connectionId = some conn ∧ columns.icebergNamespace = body.icebergNamespace ∧
        store.updateConnection connectionId columns = some after := by
  unfold updateConnection at done
  split at done
  · cases done
  · rename_i conn found
    rcases Checks.bind_eq_ok.mp done with ⟨columns, valid, stored⟩
    refine ⟨conn, columns, found, ?_, orFail_eq_ok.mp stored⟩
    simp only [validateOr400] at valid
    split at valid
    · cases valid
    · split at valid
      · cases valid
      · split at valid
        · cases valid
        · cases valid
          rfl

/-- The namespace of a connection after an edit. -/
theorem namespace_update (columns : Store.ConnectionColumns) (id : Int) (conn : Connection) :
    (columns.update id conn).icebergNamespace =
      if conn.id = id then columns.icebergNamespace else conn.icebergNamespace := by
  unfold Store.ConnectionColumns.update
  split
  · rfl
  · rfl

/-- Where every watermark stood for its table, an edit leaves it so exactly if it
is allowed. -/
theorem supported_edit_iff {answers : Answers} {connectionId : Int} {body : ConnectionIn}
    (supported : forall object, world.Supported object)
    (taken : step world (.edit answers connectionId body) = some next) :
    (forall object, next.Supported object) ↔ EditAllowed world connectionId body.icebergNamespace := by
  simp only [step] at taken
  split at taken
  · rename_i store done
    cases taken
    rcases updateConnection_columns done with ⟨conn, columns, found, same, stored⟩
    have lookup := Store.getConnection_updateConnection stored
    have own := (Store.getConnection_eq_some found).2
    have before_edit := fun object => supported_iff.mp (supported object)
    constructor
    · intro held
      refine Or.inr (fun object mine version member => ?_)
      have current : store.getConnection object.connectionId = some (columns.update connectionId conn) := by
        rw [lookup, mine, found, Option.map_some]
      have after := supported_iff.mp (held object) _ current version member
      rw [namespace_update, if_pos own, same] at after
      exact after
    · intro allowed object
      rw [supported_iff]
      intro after current version member
      simp only at current
      rw [lookup] at current
      rcases Option.map_eq_some_iff.mp current with ⟨before, present, rfl⟩
      have before_held := before_edit object before present version member
      rw [namespace_update]
      by_cases mine : before.id = connectionId
      · rw [if_pos mine, same]
        have ours : object.connectionId = connectionId := by
          rw [← (Store.getConnection_eq_some present).2, mine]
        rcases allowed with stays | holds
        · rw [← stays before (ours ▸ present)]
          exact before_held
        · exact holds object ours version member
      · rw [if_neg mine]
        exact before_held
  · cases taken

theorem rows_of_ne {after : World δ} {table other : String × String} {catalog : Catalog (Version δ)}
    (changed : after.catalogs = Function.update world.catalogs table catalog) (elsewhere : other ≠ table) :
    after.rows other = world.rows other := by
  unfold World.rows
  rw [changed, Function.update_of_ne elsewhere]

theorem rows_of_entry {after : World δ} {table : String × String} {catalog : Catalog (Version δ)}
    (changed : after.catalogs = Function.update world.catalogs table catalog) {entry : Entry (Version δ)}
    (present : catalog.entry = some entry) : after.rows table = entry.table.rows := by
  unfold World.rows
  rw [changed, Function.update_self, present]
  rfl

/-- Another object that has been synced has a table and a watermark of its own. -/
theorem elsewhere_of_ne (sound : Sound world) (apart : NamesApart world run.object)
    {conn own : Connection} (found : world.store.getConnection run.connectionId = some conn)
    (current : world.store.getConnection object.connectionId = some own) (different : object ≠ run.object)
    (synced : world.merged object ≠ []) :
    object.table own.icebergNamespace ≠ run.object.table conn.icebergNamespace ∧
      object.key ≠ run.object.key := by
  by_cases same : object.connectionId = run.connectionId
  · rcases apart object same different synced with ⟨tables, keys⟩
    exact ⟨fun alike => tables (Prod.mk.inj alike).2, fun alike => keys (Prod.mk.inj alike).2⟩
  · refine ⟨fun alike => ?_, fun alike => same (Prod.mk.inj alike).1⟩
    rcases Store.getConnection_eq_some current with ⟨listed, ownId⟩
    have other : own ∈ TokenScope.otherConnections run.connectionId world.store :=
      List.mem_filter.mpr ⟨listed, decide_eq_true (ownId ▸ same)⟩
    exact sound.1.namespace_ne found other (Prod.mk.inj alike).1

/-- The run changes one table, one watermark and what it has merged itself.  This
frame is what leaves the other objects supported. -/
structure Within (world : World δ) (run : Run δ) (table : String × String) (after : World δ) : Prop where
  store : after.store = world.store
  catalogs : Exists fun catalog : Catalog (Version δ) =>
    after.catalogs = Function.update world.catalogs table catalog
  watermarks : forall key, key ≠ run.object.key -> after.watermarks key = world.watermarks key
  merged : forall other, other ≠ run.object -> after.merged other = world.merged other

theorem supported_of_ne (sound : Sound world) (apart : NamesApart world run.object) {conn : Connection}
    (found : world.store.getConnection run.connectionId = some conn) {after : World δ}
    (inside : Within world run (run.object.table conn.icebergNamespace) after)
    (different : object ≠ run.object) (supported : world.Supported object) : after.Supported object := by
  rw [supported_iff] at supported ⊢
  intro own current version member
  rw [inside.store] at current
  rw [inside.merged object different] at member
  rcases elsewhere_of_ne sound apart found current different (List.ne_nil_of_mem member) with ⟨table, key⟩
  rcases inside.catalogs with ⟨catalog, changed⟩
  rw [rows_of_ne changed table, inside.watermarks _ key]
  exact supported own current version member

/-- What is kept of the table is there when the helper returns. -/
theorem mem_of_keeps (sound : Sound world) {table : String × String} {version : Version δ}
    (keeps : Keeps (world.catalogs table) run version) :
    Exists fun entry : Entry (Version δ) =>
      (createOrGet run.request run.faults (world.catalogs table)).1.entry = some entry ∧
        version ∈ entry.table.rows := by
  rcases keeps with ⟨entry, present, member, leaves⟩
  have alive : (world.catalogs table).deleted.contains entry.location = false := by
    rw [(sound.2 table).2]
    rfl
  exact ⟨entry, (kept_iff_leaves (sound.2 table).1 present alive).mpr leaves, member⟩

theorem supported_perform (sound : Sound world) (supported : forall object, world.Supported object)
    (allowed : RunAllowed world run outcome) (object : Synced) :
    (world.perform run outcome).Supported object := by
  rcases perform_cases world run outcome with same | ⟨conn, found, acted⟩
  · rw [same]
    exact supported object
  · rcases allowed conn found with ⟨apart, covered⟩
    simp only at acted covered
    rcases acted with ⟨raised, same⟩ | ⟨returned, entry, present, same⟩
    · rw [same]
      by_cases mine : object = run.object
      · subst mine
        rw [supported_iff]
        intro own current version member
        cases found.symm.trans current
        rcases covered version member with keeps | beyond
        · rcases mem_of_keeps sound keeps with ⟨entry, present, there⟩
          refine Or.inl ?_
          rw [rows_of_entry rfl present]
          exact there
        · rw [if_neg raised] at beyond
          exact Or.inr beyond
      · exact supported_of_ne sound apart found ⟨rfl, ⟨_, rfl⟩, fun _ _ => rfl, fun _ _ => rfl⟩ mine
          (supported object)
    · rw [same]
      by_cases mine : object = run.object
      · subst mine
        rw [supported_iff]
        intro own current version member
        cases found.symm.trans current
        simp only [Function.update_self] at member ⊢
        refine or_iff_not_imp_right.mpr (fun within => ?_)
        rw [rows_of_entry rfl rfl]
        apply mem_lake_of_merged outcome.1 member
        intro before
        rcases covered version before with keeps | again
        · rcases mem_of_keeps sound keeps with ⟨kept, there, inside⟩
          cases present.symm.trans there
          exact Or.inl inside
        · rw [if_pos returned] at again
          exact Or.inr (again.resolve_right within)
      · exact supported_of_ne sound apart found ⟨rfl, ⟨_, rfl⟩,
          fun _ elsewhere => Function.update_of_ne elsewhere _ _,
          fun _ other => Function.update_of_ne other _ _⟩ mine (supported object)

/-! ## Every sequence of runs and edits -/

theorem sound_start {store : Store} (formed : WellFormed store) : Sound (World.start store : World δ) := by
  refine ⟨formed, fun table => ⟨?_, rfl⟩⟩
  rintro entry ⟨⟩

theorem Sound.step {event : Event δ} (sound : Sound world) (taken : step world event = some next) :
    Sound next := by
  cases event with
  | edit answers connectionId body =>
      simp only [EditConnection.step] at taken
      split at taken
      · rename_i store done
        cases taken
        rcases updateConnection_columns done with ⟨conn, columns, _, _, stored⟩
        exact ⟨sound.1.updateConnection stored, sound.2⟩
      · cases taken
  | tick tick =>
      simp only [EditConnection.step] at taken
      split at taken
      · cases taken
        exact sound.perform tick.run _
      · cases taken
        exact sound
  | bootstrap boot =>
      cases taken
      exact sound.perform boot.run _

theorem supported_step {event : Event δ} (sound : Sound world) (supported : forall object, world.Supported object)
    (allowed : Allowed world event) (taken : step world event = some next) (object : Synced) :
    next.Supported object := by
  cases event with
  | edit answers connectionId body => exact (supported_edit_iff supported taken).mpr allowed object
  | tick tick =>
      simp only [step] at taken
      split at taken
      · rename_i syncs
        cases taken
        exact supported_perform sound supported (allowed syncs) object
      · cases taken
        exact supported object
  | bootstrap boot =>
      cases taken
      exact supported_perform sound supported allowed object

/-- What every allowed step keeps; the first part says that the catalogs are sound,
the second is the result. -/
structure Invariant (world : World δ) : Prop where
  sound : Sound world
  supported : forall object, world.Supported object

/-- No watermark is stranded by runs and edits that are allowed.  Watermarks are
kept by the connection and not by its namespace, so an edit of the namespace is
where it can happen. -/
theorem edits_keep_watermarks_supported (store : Store) (formed : WellFormed store) (events : List (Event δ))
    (last : World δ) (allowed : Along step Allowed (World.start store) events)
    (reached : Transition.run step (World.start store) events = some last) (object : Synced) :
    last.Supported object := by
  have start : Invariant (World.start store : World δ) := ⟨sound_start formed, fun _ _ _ _ stored => by cases stored⟩
  have inv : Invariant last := run_invariant (fun _ _ _ inv allowed taken =>
    ⟨inv.sound.step taken, supported_step inv.sound inv.supported allowed taken⟩) start allowed reached
  exact inv.supported object

/-- One row of second five is merged, and the watermark is stored. -/
def firstTick : Event Nat :=
  .tick { run := { connectionId := 1, pipe := TableSync.samplePipeline, faults := .none }, now := 10000000
          source := [{ id := 1, updatedAt := some 5000000, commit := 0, data := 0 }], raisesAfter := none }

def sampleObject : Synced :=
  { connectionId := 1, schema := "public", name := "events" }

/-- The form of the connection with this bucket and namespace. -/
def editOf (bucket icebergNamespace : String) : Event Nat :=
  .edit TokenScope.sampleAnswers 1
    { WipeScope.sampleBody "sales" bucket with icebergNamespace := icebergNamespace }

/-- The watermark stays, and there is no table under the new namespace. -/
theorem new_namespace_strands_watermark :
    Exists fun last : World Nat =>
      Transition.run step (World.start TokenScope.sampleStore) [firstTick, editOf "sales-lake" "sales_v2"] =
          some last ∧
        last.watermarks sampleObject.key = some { value := 5000000, lastId := 1 } ∧
        (last.catalogs (sampleObject.table "sales_v2")).entry.isNone = true ∧
        ¬ last.Supported sampleObject := by
  refine ⟨_, rfl, rfl, rfl, fun supported => ?_⟩
  have listed := supported _ _ rfl rfl { id := 1, updatedAt := some 5000000, commit := 0, data := 0 }
    (by decide) ⟨5000000, rfl, by decide⟩
  cases listed

/-- A new bucket changes nothing of it. -/
theorem new_bucket_keeps_watermark :
    Exists fun last : World Nat =>
      Transition.run step (World.start TokenScope.sampleStore) [firstTick, editOf "new-lake" "sales"] =
          some last ∧
        last.watermarks sampleObject.key = some { value := 5000000, lastId := 1 } ∧
        last.Supported sampleObject := by
  refine ⟨_, rfl, rfl, ?_⟩
  refine edits_keep_watermarks_supported TokenScope.sampleStore TokenScope.sampleStore_wellFormed
    [firstTick, editOf "new-lake" "sales"] _ ⟨fun _ conn _ => ⟨?_, ?_⟩, ?_⟩ rfl sampleObject
  · exact fun other _ _ synced => absurd rfl synced
  · exact fun version member => by cases member
  · intro next taken
    refine ⟨Or.inl ?_, fun _ _ => trivial⟩
    intro conn found
    cases taken
    cases found
    rfl

end EditConnection
end WarehouseSync

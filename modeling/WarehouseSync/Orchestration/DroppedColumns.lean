import WarehouseSync.Extract.DataTypes
import WarehouseSync.Library.Transition
import WarehouseSync.Orchestration.Tables

namespace WarehouseSync
namespace DroppedColumns

open DataTypes IcebergWriter Schema Tables Transition

/-!
# Columns that the lake loses

With `sync_drop_removed_columns` on, a column that the source dropped is dropped
from the lake too, unless the configuration protects it.  The configuration is
derived from the columns that discovery saw, so dropping `updated_at` or
`created_at` at the source takes away the protection together with the column.
A changed `created_at` also changes the partition spec, and then the lake table
is dropped as a whole.  The rows of the table are left out.
-/

universe u

variable {ρ : Type u}

/-- The columns that are never to be dropped. -/
def keyColumns : List String :=
  ["id", "updated_at", "created_at"]

/-- The two jobs that reconcile the lake columns. -/
inductive Job where
  | planBootstrap
  | incrementalOneTable
deriving DecidableEq, Repr

/-- What a job meets besides the source columns and the lake table: the columns in
the cached discovery, if it has the object, a fault of `load_table`, and whether
`create_table`, the union and the drop go through. -/
structure Circumstances where
  discovered : Option (List Column)
  fault : Option LoadFault
  createRaises : Bool
  unionApplies : Bool
  dropRaises : Bool

def columnNames (columns : List Column) : List String :=
  columns.map (fun column => column.name)

/-- `iceberg_schema_for` returns.  It raises for a column without a lake type,
before the lake table is looked at. -/
def schemaMaps (columns : List Column) : Bool :=
  columns.all (fun column => (icebergTypeFor column.pgType).isSome)

/-- `create_or_get_table`, whose `create_table` may raise after the drop.  The entry
is gone then, and with it every column, although the files are still there. -/
def createOrGet (cfg : TableConfig) (live : List String) (around : Circumstances)
    (lake : Option (LakeTable ρ)) : Created ρ :=
  if around.createRaises = true ∧ keepsTable cfg.partitionBy around.fault lake = false then
    { catalog := none, error := some "create_table failed" }
  else createOrGetTable live cfg.partitionBy around.fault lake

/-- The part that the two jobs share: the schemas, `create_or_get_table` and
`evolve_table_schema`.  It works with the columns as they are now, while the
configuration comes from discovery. -/
def syncColumns (cfg : TableConfig) (live : List Column) (around : Circumstances)
    (lake : Option (LakeTable ρ)) : Option (LakeTable ρ) :=
  if schemaMaps live = true then
    let created := createOrGet cfg (columnNames live) around lake
    match created.error, created.catalog with
    | none, some table =>
        some (evolveTableSchema (columnNames live) cfg.protectedColumns around.unionApplies
          (!around.dropRaises) table)
    | _, remaining => remaining
  else lake

/-- The lake table after a job.  A run without a watermark column is skipped, so an
object whose `updated_at` is gone is not touched by the incremental job at all. -/
def jobLake (schema name : String) (job : Job) (live : List Column) (around : Circumstances)
    (lake : Option (LakeTable ρ)) : Option (LakeTable ρ) :=
  match around.discovered with
  | none => lake
  | some columns =>
      let cfg := configFromObject { schema := schema, name := name, columns := columns }
      match job with
      | .planBootstrap => syncColumns cfg live around lake
      | .incrementalOneTable =>
          if cfg.supportsIncremental = true then syncColumns cfg live around lake else lake

/-- The columns of the source now and before, and the lake table.  The earlier ones
are kept because discovery is cached: a job may act on columns that are no longer
there. -/
structure World (ρ : Type u) where
  source : List Column
  earlier : List (List Column)
  lake : Option (LakeTable ρ)

/-- Discovery saw the source as it is or as it was.  How long ago is left open,
since the jobs and the gateway have caches of their own. -/
def World.saw (world : World ρ) : Option (List Column) -> Bool
  | none => true
  | some columns => decide (columns = world.source) || world.earlier.contains columns

inductive Event where
  | change (columns : List Column)
  | run (job : Job) (around : Circumstances)

/-- One change of the source or one job on the table.  A job is a single step,
because nothing else changes the columns of the lake table while it runs. -/
def step (schema name : String) (world : World ρ) : Event -> Option (World ρ)
  | .change columns =>
      some { source := columns, earlier := world.source :: world.earlier, lake := world.lake }
  | .run job around =>
      if world.saw around.discovered = true then
        some { world with lake := jobLake schema name job world.source around world.lake }
      else none

def lakeColumns (lake : Option (LakeTable ρ)) : List String :=
  match lake with
  | some table => table.schema
  | none => []

/-- A key column stays from the time it is present, and a step takes any other
column only if the source does not have it.  The first part is about stretches of a
run, so a key column that is taken and added again has been taken. -/
structure NeverTaken (schema name : String) (start : World ρ) (events : List Event) : Prop where
  keys : forall first second rest middle last, events = first ++ (second ++ rest) ->
    run (step schema name) start first = some middle ->
      run (step schema name) middle second = some last ->
        forall column, column ∈ keyColumns -> column ∈ lakeColumns middle.lake ->
          column ∈ lakeColumns last.lake
  others : forall first event rest middle next, events = first ++ event :: rest ->
    run (step schema name) start first = some middle -> step schema name middle event = some next ->
      forall column, column ∈ lakeColumns middle.lake -> column ∉ lakeColumns next.lake ->
        column ∉ columnNames middle.source

def specBuilds (live : List String) (partitionBy : List PartitionBy) : Bool :=
  match buildPartitionSpec live 1000 partitionBy with
  | .ok _ => true
  | .error _ => false

/-- A table that is kept must have its key columns in the source, protected or
partitioned by.  A table that is dropped must have them in the source, and the new
one must get created.  Whether it is kept is settled by what the job finds, before
it changes anything. -/
def Spares (cfg : TableConfig) (live : List String) (around : Circumstances) (table : LakeTable ρ) :
    Prop :=
  if keepsTable cfg.partitionBy around.fault (some table) = true then
    around.fault.isSome = true ∨ around.dropRaises = true ∨
      forall column, column ∈ keyColumns -> column ∈ table.schema ->
        column ∈ live ∨ column ∈ cfg.protectedColumns ∨
          column ∈ table.spec.map (fun field => field.source)
  else if around.createRaises = false ∧ specBuilds live cfg.partitionBy = true then
    forall column, column ∈ keyColumns -> column ∈ table.schema -> column ∈ live
  else forall column, column ∈ table.schema -> column ∉ keyColumns ∧ column ∉ live

/-- The configuration of a job that reaches the lake table.  A job that does not is
of no concern, whatever it has found. -/
def reaches (schema name : String) (world : World ρ) (job : Job) (around : Circumstances) :
    Option TableConfig :=
  if world.saw around.discovered = true ∧ schemaMaps world.source = true then
    match around.discovered with
    | none => none
    | some columns =>
        let cfg := configFromObject { schema := schema, name := name, columns := columns }
        if job = .planBootstrap ∨ cfg.supportsIncremental = true then some cfg else none
  else none

/-- The condition on a step.  It looks at the state before the step and at the
circumstances of the job, and is true of every change of the source. -/
def Safe (schema name : String) (world : World ρ) : Event -> Prop
  | .change _ => True
  | .run job around =>
      forall cfg table, reaches schema name world job around = some cfg -> world.lake = some table ->
        Spares cfg (columnNames world.source) around table

/-- Of the columns of a lake table, only some that are no key columns and that the
source does not have are gone.  It is what a single job has to do with the table. -/
def LosesOnly (live : List String) (before after : Option (LakeTable ρ)) : Prop :=
  forall column, column ∈ lakeColumns before -> column ∉ lakeColumns after ->
    column ∉ keyColumns ∧ column ∉ live

/-! ## One job -/

theorem mem_evolveTableSchema {source protectedColumns : List String} {unionApplies dropRaises : Bool}
    {table : LakeTable ρ} {column : String} (present : column ∈ table.schema) :
    column ∈ (evolveTableSchema source protectedColumns unionApplies (!dropRaises) table).schema ↔
      dropRaises = true ∨ column ∈ source ∨ column ∈ protectedColumns ∨
        column ∈ table.spec.map (fun field => field.source) := by
  have united : column ∈ (if unionApplies = true then
      table.schema ++ source.filter (fun name => decide (name ∉ table.schema)) else table.schema) := by
    split
    · exact List.mem_append_left _ present
    · exact present
  unfold evolveTableSchema
  cases dropRaises with
  | true =>
      constructor
      · intro _
        exact Or.inl rfl
      · intro _
        exact united
  | false =>
      simp only [Bool.not_false, if_true, List.mem_filter, decide_eq_true_eq, List.mem_append]
      constructor
      · rintro ⟨_, kept⟩
        exact Or.inr kept
      · rintro (impossible | kept)
        · cases impossible
        · exact ⟨united, kept⟩

/-- A table created with the source columns has these columns after the
evolution. -/
theorem mem_evolve_created {live protectedColumns : List String} {unionApplies dropRaises : Bool}
    {table : LakeTable ρ} (created : table.schema = live) {column : String} :
    column ∈ (evolveTableSchema live protectedColumns unionApplies (!dropRaises) table).schema ↔
      column ∈ live := by
  constructor
  · intro member
    unfold evolveTableSchema at member
    have nothing : live.filter (fun name => decide (name ∉ live)) = [] := by
      apply List.filter_eq_nil_iff.mpr
      intro name present
      simpa using present
    simp only [created, nothing, List.append_nil, ite_self] at member
    split at member
    · exact (List.mem_filter.mp member).1
    · exact member
  · intro member
    exact (mem_evolveTableSchema (created ▸ member)).mpr (Or.inr (Or.inl member))

/-- The table afterwards when it is kept and loads. -/
theorem losesOnly_evolve_iff {cfg : TableConfig} {live : List String} {around : Circumstances}
    {table : LakeTable ρ} :
    LosesOnly live (some table)
        (some (evolveTableSchema live cfg.protectedColumns around.unionApplies (!around.dropRaises) table)) ↔
      around.dropRaises = true ∨ forall column, column ∈ keyColumns -> column ∈ table.schema ->
        column ∈ live ∨ column ∈ cfg.protectedColumns ∨
          column ∈ table.spec.map (fun field => field.source) := by
  constructor
  · intro spared
    by_cases skipped : around.dropRaises = true
    · exact Or.inl skipped
    · right
      intro column key present
      by_contra unprotected
      apply (spared column present ?_).1 key
      intro kept
      rcases (mem_evolveTableSchema present).mp kept with impossible | reason
      · exact skipped impossible
      · exact unprotected reason
  · intro reasons column present gone
    have unkept : ¬ (around.dropRaises = true ∨ column ∈ live ∨ column ∈ cfg.protectedColumns ∨
        column ∈ table.spec.map (fun field => field.source)) :=
      fun kept => gone ((mem_evolveTableSchema present).mpr kept)
    constructor
    · intro key
      cases reasons with
      | inl skipped => exact unkept (Or.inl skipped)
      | inr each => exact unkept (Or.inr (each column key present))
    · intro inSource
      exact unkept (Or.inr (Or.inl inSource))

theorem losesOnly_created_iff {cfg : TableConfig} {live : List String} {around : Circumstances}
    {table fresh : LakeTable ρ} (created : fresh.schema = live) :
    LosesOnly live (some table)
        (some (evolveTableSchema live cfg.protectedColumns around.unionApplies (!around.dropRaises) fresh)) ↔
      forall column, column ∈ keyColumns -> column ∈ table.schema -> column ∈ live := by
  constructor
  · intro spared column key present
    by_contra absent
    apply (spared column present ?_).1 key
    intro kept
    exact absent ((mem_evolve_created created).mp kept)
  · intro each column present gone
    have absent : column ∉ live := fun inSource => gone ((mem_evolve_created created).mpr inSource)
    exact ⟨fun key => absent (each column key present), absent⟩

theorem losesOnly_none_iff {live : List String} {table : LakeTable ρ} :
    LosesOnly live (some table) none ↔
      forall column, column ∈ table.schema -> column ∉ keyColumns ∧ column ∉ live := by
  constructor
  · intro spared column present
    exact spared column present List.not_mem_nil
  · intro each column present _
    exact each column present

/-- A job that reaches the lake table spares its columns exactly under the
condition. -/
theorem losesOnly_syncColumns_iff {cfg : TableConfig} {live : List Column} {around : Circumstances}
    {table : LakeTable ρ} (maps : schemaMaps live = true) :
    LosesOnly (columnNames live) (some table) (syncColumns cfg live around (some table)) ↔
      Spares cfg (columnNames live) around table := by
  unfold Spares syncColumns createOrGet
  rw [if_pos maps]
  by_cases keeps : keepsTable cfg.partitionBy around.fault (some table) = true
  · have stays : ¬ (around.createRaises = true ∧
        keepsTable cfg.partitionBy around.fault (some table) = false) := by
      rintro ⟨_, dropped⟩
      rw [keeps] at dropped
      cases dropped
    rw [if_pos keeps, if_neg stays]
    unfold keepsTable at keeps
    unfold createOrGetTable
    cases seen : around.fault with
    | some fault =>
        rw [seen] at keeps
        have alive : ¬ fault.orphaned = true := by simpa using keeps
        simp only [if_neg alive]
        constructor
        · intro _
          exact Or.inl rfl
        · intro _ column present gone
          exact absurd present gone
    | none =>
        rw [seen] at keeps
        simp only [if_pos (of_decide_eq_true keeps)]
        rw [losesOnly_evolve_iff]
        simp only [Option.isSome_none, Bool.false_eq_true, false_or]
  · have dropped : keepsTable cfg.partitionBy around.fault (some table) = false := by simpa using keeps
    rw [if_neg keeps, dropped]
    cases raises : around.createRaises with
    | true =>
        simp only [and_self, if_true, Bool.true_eq_false, false_and, if_false]
        exact losesOnly_none_iff
    | false =>
        simp only [Bool.false_eq_true, false_and, if_false, true_and]
        rw [createOrGetTable_created dropped, createTable, specBuilds]
        cases buildPartitionSpec (columnNames live) 1000 cfg.partitionBy with
        | error message =>
            simp only [Bool.false_eq_true, if_false]
            exact losesOnly_none_iff
        | ok spec =>
            simp only [if_true]
            exact losesOnly_created_iff rfl

theorem losesOnly_refl (live : List String) (lake : Option (LakeTable ρ)) : LosesOnly live lake lake := by
  intro column present gone
  exact absurd present gone

theorem syncColumns_unmapped {cfg : TableConfig} {live : List Column} {around : Circumstances}
    {lake : Option (LakeTable ρ)} (maps : ¬ schemaMaps live = true) :
    syncColumns cfg live around lake = lake :=
  if_neg maps

/-- A job either reaches the lake table with a configuration or leaves it. -/
theorem jobLake_eq {schema name : String} {world : World ρ} {job : Job} {around : Circumstances}
    (seen : world.saw around.discovered = true) :
    jobLake schema name job world.source around world.lake =
      match reaches schema name world job around with
      | some cfg => syncColumns cfg world.source around world.lake
      | none => world.lake := by
  unfold jobLake
  by_cases maps : schemaMaps world.source = true
  · unfold reaches
    rw [if_pos ⟨seen, maps⟩]
    cases around.discovered with
    | none => rfl
    | some columns =>
        cases job with
        | planBootstrap => simp only [true_or, if_true]
        | incrementalOneTable =>
            simp only [reduceCtorEq, false_or]
            split
            · rfl
            · rfl
  · have unreached : reaches schema name world job around = none := if_neg (fun both => maps both.2)
    rw [unreached]
    cases around.discovered with
    | none => rfl
    | some columns =>
        simp only [syncColumns_unmapped maps, ite_self]
        cases job with
        | planBootstrap => rfl
        | incrementalOneTable => rfl

theorem maps_of_reaches {schema name : String} {world : World ρ} {job : Job} {around : Circumstances}
    {cfg : TableConfig} (reached : reaches schema name world job around = some cfg) :
    schemaMaps world.source = true := by
  unfold reaches at reached
  split at reached
  · rename_i conditions
    exact conditions.2
  · cases reached

/-- A job spares the columns exactly when it is safe. -/
theorem losesOnly_jobLake_iff {schema name : String} {world : World ρ} {job : Job} {around : Circumstances}
    (seen : world.saw around.discovered = true) :
    LosesOnly (columnNames world.source) world.lake (jobLake schema name job world.source around world.lake) ↔
      Safe schema name world (.run job around) := by
  rw [jobLake_eq seen, Safe]
  cases reached : reaches schema name world job around with
  | none =>
      constructor
      · intro _ cfg table impossible
        cases impossible
      · intro _
        exact losesOnly_refl _ _
  | some cfg =>
      cases world.lake with
      | none =>
          constructor
          · intro _ cfg table _ impossible
            cases impossible
          · intro _ column impossible
            cases impossible
      | some table =>
          rw [losesOnly_syncColumns_iff (maps_of_reaches reached)]
          constructor
          · intro spares _ _ sameCfg sameTable
            cases sameCfg
            cases sameTable
            exact spares
          · intro all
            exact all cfg table rfl rfl

/-- One step spares the columns exactly when it is safe. -/
theorem losesOnly_step_iff {schema name : String} {world : World ρ} {event : Event} :
    (forall next, step schema name world event = some next ->
      LosesOnly (columnNames world.source) world.lake next.lake) ↔ Safe schema name world event := by
  cases event with
  | change columns =>
      constructor
      · intro _
        trivial
      · intro _ next taken
        cases taken
        exact losesOnly_refl _ _
  | run job around =>
      by_cases seen : world.saw around.discovered = true
      · have taken : step schema name world (.run job around) =
            some { world with lake := jobLake schema name job world.source around world.lake } := if_pos seen
        rw [taken, ← losesOnly_jobLake_iff seen]
        constructor
        · intro all
          exact all _ rfl
        · intro here next same
          cases same
          exact here
      · have blocked : step schema name world (.run job around) = none := if_neg seen
        have unreached : reaches schema name world job around = none := if_neg (fun both => seen both.1)
        rw [blocked, Safe, unreached]
        constructor
        · intro _ cfg table impossible
          cases impossible
        · intro _ next impossible
          cases impossible

/-- The two parts of the property are one fact about every step. -/
theorem neverTaken_iff_steps {schema name : String} {start : World ρ} {events : List Event} :
    NeverTaken schema name start events ↔
      Along (step schema name) (fun world event => forall next, step schema name world event = some next ->
        LosesOnly (columnNames world.source) world.lake next.lake) start events := by
  rw [along_iff_splits]
  constructor
  · intro never first event rest middle split reached next taken column present gone
    refine ⟨?_, never.others first event rest middle next split reached taken column present gone⟩
    intro key
    exact gone (never.keys first [event] rest middle next split reached
      (run_cons_eq_some.mpr ⟨next, taken, rfl⟩) column key present)
  · intro spares
    refine ⟨?_, ?_⟩
    · intro first second rest middle last split reached ended column key
      induction second generalizing first middle with
      | nil =>
          cases ended
          exact fun present => present
      | cons event second ih =>
          rcases run_cons_eq_some.mp ended with ⟨next, taken, after⟩
          intro present
          have stays : column ∈ lakeColumns next.lake := by
            by_contra gone
            exact (spares first event (second ++ rest) middle split reached next taken column present gone).1 key
          apply ih (first ++ [event]) next _ (run_concat reached taken) after stays
          rw [split, List.append_assoc]
          rfl
    · intro first event rest middle next split reached taken column present gone
      exact (spares first event rest middle split reached next taken column present gone).2

/-- Every run keeps the key columns, and takes no column that the source has,
exactly when all of its steps are safe.  A job is unsafe when discovery no longer
sees a key column, because then nothing protects it. -/
theorem neverTaken_iff (schema name : String) (start : World ρ) (events : List Event) :
    NeverTaken schema name start events ↔ Along (step schema name) (Safe schema name) start events := by
  rw [neverTaken_iff_steps]
  constructor
  · intro along
    exact along.mono (fun _ _ spares => losesOnly_step_iff.mp spares)
  · intro along
    exact along.mono (fun _ _ safe => losesOnly_step_iff.mpr safe)

/-- A table with `updated_at`, and the same in the lake. -/
def eventsWorld : World Unit :=
  { source := [{ name := "id", pgType := "bigint" },
      { name := "updated_at", pgType := "timestamp with time zone" }]
    earlier := []
    lake := some { schema := ["id", "updated_at"], spec := [], rows := [] } }

/-- The source drops `updated_at`, and the next bootstrap discovers the table
without it. -/
def updatedAtRemoved : List Event :=
  [.change [{ name := "id", pgType := "bigint" }],
    .run .planBootstrap
      { discovered := some [{ name := "id", pgType := "bigint" }]
        fault := none
        createRaises := false
        unionApplies := true
        dropRaises := false }]

theorem updated_at_is_dropped :
    ¬ NeverTaken "public" "events" eventsWorld updatedAtRemoved := by
  intro never
  have maps : schemaMaps [{ name := "id", pgType := "bigint" }] = true := by
    simp only [schemaMaps, List.all_cons, List.all_nil, icebergTypeFor]
    rw [DataTypes.pgToArrowType]
    decide
  have ran : run (step "public" "events") eventsWorld updatedAtRemoved = some
      { source := [{ name := "id", pgType := "bigint" }]
        earlier := [eventsWorld.source]
        lake := some { schema := ["id"], spec := [], rows := [] } } := by
    simp only [updatedAtRemoved, run, step, jobLake, syncColumns, Option.bind_some, maps, if_true]
    rfl
  have stays := never.keys [] updatedAtRemoved [] eventsWorld _ (List.append_nil _).symm rfl ran
    "updated_at" (by decide) (by decide)
  exact absurd stays (by decide)

end DroppedColumns
end WarehouseSync

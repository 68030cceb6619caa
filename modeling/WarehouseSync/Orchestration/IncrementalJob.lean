import WarehouseSync.Extract.RunIncremental
import WarehouseSync.Load.IcebergWriter
import WarehouseSync.Load.Merge
import WarehouseSync.Orchestration.TableSync

namespace WarehouseSync
namespace IncrementalJob

open IcebergWriter Incremental KeyedRows Merge RunIncremental Schema Tables Watermarks

/-!
# One incremental run (`orchestration/incremental_job.py`)

The configuration, and with it the partition spec, is derived from the columns
that discovery saw, and the schema from the columns as they are now.  The helper
that finds or creates the lake table is the one of the full reload: it drops a
table whose spec differs.  The watermark is kept all the same, so of a dropped
table only the rows of the current window come back.
-/

universe u v

variable {ρ : Type u} {σ : Type v} {κ : Type}

/-- Where the run raises because of something outside of it.  The places differ in
what has been committed by then, and a batch of the merge is the smallest unit of
that. -/
inductive Interruption where
  | beforeCreate
  | inCreate
  | beforeMerge
  | afterBatches (merged : Nat)
deriving DecidableEq, Repr

/-- `align_to_table` for the table of the run.  The id is cast to the type that it
has in the lake; a cast that fails leaves a NULL, so two ids may end without a key.
-/
structure Alignment (columns : NullableColumns ρ) (pk : σ -> Option κ) where
  align : ρ -> σ
  cast : Int -> Option κ
  pk_align : forall row, pk (align row) = (columns.id row).bind cast

/-- What the run finds outside of the lake and the watermark store.  The discovered
object may be older than the source, because it comes from a cache. -/
structure Tick (ρ : Type u) where
  discovered : Option DiscoveredObject
  source : Source ρ
  settings : IncrementalSettings
  now : Int
  fault : Option LoadFault
  unionApplies : Bool
  dropRemoved : Bool
  interruption : Option Interruption

/-- The catalog afterwards, the watermark that is handed to
`advance_watermark_after_merge`, the number of rows returned, and whether the run
raised.  A run that raises may have changed the catalog. -/
structure Outcome (σ : Type v) where
  catalog : Option (LakeTable σ)
  advanced : Option (WatermarkKind × Reached)
  rows : Nat
  raised : Bool

/-- The default of `merge_parquet_batched`. -/
def batchRows : Nat := 200000

namespace Tick

def names (tick : Tick ρ) : List String :=
  tick.source.columns.map (fun column => column.name)

/-- `create_or_get_table`, whose `create_table` may raise after the drop.  A table
that is kept is not created, so the interruption has no effect on it. -/
def create (tick : Tick ρ) (cfg : TableConfig) (catalog : Option (LakeTable σ)) : Created σ :=
  if tick.interruption = some .inCreate ∧ keepsTable cfg.partitionBy tick.fault catalog = false then
    { catalog := none, error := some "create_table failed" }
  else createOrGetTable tick.names cfg.partitionBy tick.fault catalog

end Tick

variable [DecidableEq κ] {pk : σ -> Option κ}

/-- The batches of a window, merged one by one.  Both columns that the deduplication
looks at are there, or there is no window. -/
def mergeRows {columns : NullableColumns ρ} (alignment : Alignment columns pk) (lake : List σ)
    (batches : List (List ρ)) : BatchedMerge σ :=
  mergeBatches { id := some columns.id, updatedAt := some columns.watermark } alignment.align pk lake batches

/-- The run from `run_incremental` on.  A window without rows has no batches.  The
watermark is handed on only after the last batch, so an interrupted merge is
repeated by the next run. -/
def mergeWindow (tick : Tick ρ) (alignment : Alignment tick.source.accessors pk) (cfg : TableConfig)
    (watermarkColumn : String) (stored : Option Row) (table : LakeTable σ) : Outcome σ :=
  if tick.interruption = some .beforeMerge then
    { catalog := some table, advanced := none, rows := 0, raised := true }
  else
    match runIncremental tick.source watermarkColumn cfg.pk tick.settings tick.now stored with
    | .unsupported => { catalog := some table, advanced := none, rows := 0, raised := false }
    | .raised => { catalog := some table, advanced := none, rows := 0, raised := true }
    | .extracted kind extraction =>
        let batches := Splitting.batches batchRows extraction.rows
        match tick.interruption with
        | some (.afterBatches merged) =>
            { catalog := some { table with rows := (mergeRows alignment table.rows (batches.take merged)).lake }
              advanced := none, rows := 0, raised := true }
        | _ =>
            let merge := mergeRows alignment table.rows batches
            { catalog := some { table with rows := merge.lake }
              advanced := some (kind, extraction.watermark)
              rows := merge.rowsWritten
              raised := extraction.watermark.mark.isNone }

/-- The run from `create_or_get_table` on.  An error of the helper ends the run,
also when the entry was dropped before it. -/
def continueWith (tick : Tick ρ) (alignment : Alignment tick.source.accessors pk) (cfg : TableConfig)
    (watermarkColumn : String) (stored : Option Row) (created : Created σ) : Outcome σ :=
  match created.error, created.catalog with
  | none, some table => mergeWindow tick alignment cfg watermarkColumn stored
      (evolveTableSchema tick.names cfg.protectedColumns tick.unionApplies tick.dropRemoved table)
  | _, remaining => { catalog := remaining, advanced := none, rows := 0, raised := true }

/-- `incremental_one_table` on the stored watermark and the catalog entry.  It is
one function of what the run finds, so that what it leaves can be compared with what
was there. -/
def incrementalOneTable (tick : Tick ρ) (alignment : Alignment tick.source.accessors pk)
    (stored : Option Row) (catalog : Option (LakeTable σ)) : Outcome σ :=
  match tick.discovered.map configFromObject with
  | none => { catalog := catalog, advanced := none, rows := 0, raised := false }
  | some cfg =>
      match cfg.watermarkColumn with
      | none => { catalog := catalog, advanced := none, rows := 0, raised := false }
      | some watermarkColumn =>
          if tick.interruption = some .beforeCreate then
            { catalog := catalog, advanced := none, rows := 0, raised := true }
          else continueWith tick alignment cfg watermarkColumn stored (tick.create cfg catalog)

def lakeRows (catalog : Option (LakeTable σ)) : List σ :=
  (catalog.map (fun table => table.rows)).getD []

/-- The run ends before it looks at the lake table, or the helper leaves the table
alone.  In these cases no row is lost, whatever the window holds, because a merge
keeps every key. -/
def LeavesTable (tick : Tick ρ) (catalog : Option (LakeTable σ)) : Prop :=
  match tick.discovered.map configFromObject with
  | none => True
  | some cfg => cfg.watermarkColumn = none ∨ tick.interruption = some .beforeCreate ∨
      keepsTable cfg.partitionBy tick.fault catalog = true

/-- The rows of the window that the run gets to merge into a table it has.  They are
the rows that a table created anew ends up with. -/
def mergedRows (tick : Tick ρ) (cfg : TableConfig) (watermarkColumn : String) (stored : Option Row) : List ρ :=
  if tick.interruption = some .beforeMerge then []
  else
    match runIncremental tick.source watermarkColumn cfg.pk tick.settings tick.now stored with
    | .extracted _ extraction =>
        match tick.interruption with
        | some (.afterBatches merged) => ((Splitting.batches batchRows extraction.rows).take merged).flatten
        | _ => extraction.rows
    | _ => []

/-- The same for a table that has to be created first.  There are none if the
configuration or its spec keeps the table from being created. -/
def reloadedRows (tick : Tick ρ) (stored : Option Row) : List ρ :=
  match tick.discovered.map configFromObject with
  | none => []
  | some cfg =>
      match cfg.watermarkColumn, buildPartitionSpec tick.names 1000 cfg.partitionBy with
      | some watermarkColumn, .ok _ =>
          if tick.interruption = some .inCreate then [] else mergedRows tick cfg watermarkColumn stored
      | _, _ => []

variable {tick : Tick ρ} {alignment : Alignment tick.source.accessors pk} {cfg : TableConfig}
  {watermarkColumn : String} {stored : Option Row} {value : κ}

theorem mem_keys_mergeRows {columns : NullableColumns ρ} {alignment : Alignment columns pk} {lake : List σ}
    {batches : List (List ρ)} :
    value ∈ keys pk (mergeRows alignment lake batches).lake ↔ value ∈ keys pk lake ∨
      Exists fun row : ρ => row ∈ batches.flatten ∧ (columns.id row).bind alignment.cast = some value :=
  mem_keys_mergeBatches alignment.pk_align

/-- From `run_incremental` on, ids are only added. -/
theorem mem_keys_mergeWindow {table : LakeTable σ} :
    value ∈ keys pk (lakeRows (mergeWindow tick alignment cfg watermarkColumn stored table).catalog) ↔
      value ∈ keys pk table.rows ∨ Exists fun row : ρ =>
        row ∈ mergedRows tick cfg watermarkColumn stored ∧
          (tick.source.accessors.id row).bind alignment.cast = some value := by
  unfold mergeWindow mergedRows
  by_cases early : tick.interruption = some .beforeMerge
  · simp [early, lakeRows]
  · simp only [if_neg early]
    cases runIncremental tick.source watermarkColumn cfg.pk tick.settings tick.now stored with
    | unsupported => simp [lakeRows]
    | raised => simp [lakeRows]
    | extracted kind extraction =>
        simp only
        split
        · exact mem_keys_mergeRows
        · have whole := @mem_keys_mergeRows ρ σ κ _ pk value _ alignment table.rows
            (Splitting.batches batchRows extraction.rows)
          rw [Splitting.flatten_batches] at whole
          exact whole

theorem create_kept {catalog : Option (LakeTable σ)}
    (kept : keepsTable cfg.partitionBy tick.fault catalog = true) :
    (tick.create cfg catalog).catalog = catalog := by
  unfold Tick.create
  rw [if_neg (by simp [kept])]
  exact createOrGetTable_kept kept

/-- A table that is not left alone is created anew, if that succeeds. -/
theorem create_dropped {catalog : Option (LakeTable σ)}
    (dropped : keepsTable cfg.partitionBy tick.fault catalog = false) :
    tick.create cfg catalog =
      if tick.interruption = some .inCreate then { catalog := none, error := some "create_table failed" }
      else createTable tick.names cfg.partitionBy := by
  unfold Tick.create
  by_cases failing : tick.interruption = some .inCreate
  · rw [if_pos failing, if_pos ⟨failing, dropped⟩]
  · rw [if_neg failing, if_neg (fun both => failing both.1)]
    exact createOrGetTable_created dropped

theorem incrementalOneTable_eligible {catalog : Option (LakeTable σ)}
    (configured : tick.discovered.map configFromObject = some cfg)
    (eligible : cfg.watermarkColumn = some watermarkColumn)
    (begun : tick.interruption ≠ some .beforeCreate) :
    incrementalOneTable tick alignment stored catalog =
      continueWith tick alignment cfg watermarkColumn stored (tick.create cfg catalog) := by
  unfold incrementalOneTable
  simp only [configured, eligible, if_neg begun]

/-- A table that is left alone keeps its ids. -/
theorem keys_continueWith {created : Created σ} (present : value ∈ keys pk (lakeRows created.catalog)) :
    value ∈ keys pk (lakeRows (continueWith tick alignment cfg watermarkColumn stored created).catalog) := by
  unfold continueWith
  split
  · rename_i table _ listed
    rw [listed] at present
    exact mem_keys_mergeWindow.mpr (Or.inl present)
  · exact present

/-- A table that is created anew has the ids of the rows that are merged. -/
theorem mem_keys_continueWith_dropped {catalog : Option (LakeTable σ)}
    (configured : tick.discovered.map configFromObject = some cfg)
    (eligible : cfg.watermarkColumn = some watermarkColumn)
    (dropped : keepsTable cfg.partitionBy tick.fault catalog = false) :
    value ∈ keys pk (lakeRows (continueWith tick alignment cfg watermarkColumn stored
      (tick.create cfg catalog)).catalog) ↔
        Exists fun row : ρ => row ∈ reloadedRows tick stored ∧
          (tick.source.accessors.id row).bind alignment.cast = some value := by
  rw [create_dropped dropped]
  unfold reloadedRows
  simp only [configured, eligible]
  by_cases failing : tick.interruption = some .inCreate
  · rw [if_pos failing]
    cases buildPartitionSpec tick.names 1000 cfg.partitionBy with
    | error message => simp [continueWith, lakeRows, keys]
    | ok spec => simp [continueWith, lakeRows, keys, failing]
  · rw [if_neg failing]
    unfold createTable
    cases buildPartitionSpec tick.names 1000 cfg.partitionBy with
    | error message => simp [continueWith, lakeRows, keys]
    | ok spec =>
        simp only [if_neg failing]
        refine mem_keys_mergeWindow.trans ?_
        simp [keys]

/-- Every id of the lake is still there afterwards exactly if the helper leaves the
table alone, or every id is among those of the window that is merged into the new
table.  The stored watermark is kept when the table is created anew, so the window
is seldom the whole source. -/
theorem ids_kept_iff (tick : Tick ρ) (alignment : Alignment tick.source.accessors pk) (stored : Option Row)
    (catalog : Option (LakeTable σ)) :
    (forall value : κ, value ∈ keys pk (lakeRows catalog) ->
      value ∈ keys pk (lakeRows (incrementalOneTable tick alignment stored catalog).catalog)) ↔
    LeavesTable tick catalog ∨ forall value : κ, value ∈ keys pk (lakeRows catalog) ->
      Exists fun row : ρ => row ∈ reloadedRows tick stored ∧
        (tick.source.accessors.id row).bind alignment.cast = some value := by
  cases configured : tick.discovered.map configFromObject with
  | none =>
      have skipped : (incrementalOneTable tick alignment stored catalog).catalog = catalog := by
        simp only [incrementalOneTable, configured]
      refine iff_of_true (fun value present => skipped.symm ▸ present) (Or.inl ?_)
      simp only [LeavesTable, configured]
  | some cfg =>
      cases eligible : cfg.watermarkColumn with
      | none =>
          have skipped : (incrementalOneTable tick alignment stored catalog).catalog = catalog := by
            simp only [incrementalOneTable, configured, eligible]
          refine iff_of_true (fun value present => skipped.symm ▸ present) (Or.inl ?_)
          simp only [LeavesTable, configured]
          exact Or.inl eligible
      | some watermarkColumn =>
          by_cases begun : tick.interruption = some .beforeCreate
          · have raised : (incrementalOneTable tick alignment stored catalog).catalog = catalog := by
              simp only [incrementalOneTable, configured, eligible, if_pos begun]
            refine iff_of_true (fun value present => raised.symm ▸ present) (Or.inl ?_)
            simp only [LeavesTable, configured]
            exact Or.inr (Or.inl begun)
          · rw [incrementalOneTable_eligible configured eligible begun]
            cases kept : keepsTable cfg.partitionBy tick.fault catalog with
            | true =>
                refine iff_of_true (fun value present => keys_continueWith ?_) (Or.inl ?_)
                · rw [create_kept kept]
                  exact present
                · simp only [LeavesTable, configured]
                  exact Or.inr (Or.inr kept)
            | false =>
                have notLeft : ¬ LeavesTable tick catalog := by
                  simp only [LeavesTable, configured]
                  rintro (ineligible | early | keeps)
                  · cases eligible.symm.trans ineligible
                  · exact begun early
                  · cases kept.symm.trans keeps
                simp only [mem_keys_continueWith_dropped configured eligible kept, notLeft, false_or]

/-- As long as the columns do not change, the table is left alone. -/
theorem leavesTable_of_unchanged {object : DiscoveredObject} {schema : List String} {table grown : LakeTable σ}
    (discovered : tick.discovered = some object) (healthy : tick.fault = none)
    (created : (createTable schema (configFromObject object).partitionBy : Created σ).catalog = some table)
    (spec : grown.spec = table.spec) : LeavesTable tick (some grown) := by
  simp only [LeavesTable, discovered, healthy, Option.map_some]
  exact Or.inr (Or.inr (keepsTable_of_createTable created spec))

/-! ## The run as a tick -/

section Tick

open TableSync

variable {δ : Type u} {pipe : Pipeline δ} {world : World δ}

theorem lake_foldl_mergeBatch (batches : List (List (Version δ))) (state : BatchedMerge (Version δ)) :
    (batches.foldl (mergeBatch stagedColumns id Version.key) state).lake =
      batches.foldl mergeInto state.lake := by
  induction batches generalizing state with
  | nil => rfl
  | cons batch batches ih =>
      rw [List.foldl_cons, List.foldl_cons, ih]
      congr 1
      unfold mergeInto mergeBatch
      split
      · rfl
      · rfl

/-- A run that nothing disturbs and that finds its table does what a tick does
when all of its steps are taken at once: it reads the window, merges its batches
in order and advances to the same mark. -/
theorem mergeWindow_undisturbed {tick : Tick (Version δ)}
    {alignment : Alignment tick.source.accessors (Version.key (δ := δ))} {cfg : TableConfig}
    {watermarkColumn : String} {stored : Option Row} {wm : Watermark pipe.kind} {table : LakeTable (Version δ)}
    (accessors : tick.source.accessors = ofTotal watermarkColumns) (align : alignment.align = id)
    (rows : tick.source.rows = world.source) (settings : tick.settings = pipe.settings)
    (batches : pipe.batchRows = batchRows) (undisturbed : tick.interruption = none)
    (kind : kindOfColumn tick.source.columns watermarkColumn = some pipe.kind)
    (key : cfg.pk ∈ tick.source.columns.map (fun column => column.name))
    (read : getWatermark pipe.kind stored = some wm) (mark : markOf wm = world.mark) :
    mergeWindow tick alignment cfg watermarkColumn stored table =
      { catalog := some { table with
          rows := (extractWindow pipe world tick.now world.mark).pending.foldl mergeInto table.rows }
        advanced := some (pipe.kind, reachedOf (extractWindow pipe world tick.now world.mark).watermark)
        rows := (mergeRows alignment table.rows (extractWindow pipe world tick.now world.mark).pending).rowsWritten
        raised := false } := by
  have extracted : RunIncremental.runIncremental tick.source watermarkColumn cfg.pk tick.settings tick.now stored =
      .extracted pipe.kind
        { staged := (Incremental.runIncremental watermarkColumns pipe.settings pipe.kind tick.now world.mark
            world.source).staged
          watermark := reachedOf (Incremental.runIncremental watermarkColumns pipe.settings pipe.kind tick.now
            world.mark world.source).watermark } := by
    unfold RunIncremental.runIncremental
    simp only [kind, read, mark, accessors, rows, settings, extract_ofTotal]
    rw [if_neg (fun both => both.2 key)]
  have staged : ({ id := some tick.source.accessors.id, updatedAt := some tick.source.accessors.watermark } :
      StagedColumns (Version δ) Int Int) = stagedColumns := by
    rw [accessors]
    rfl
  have merged : forall batches : List (List (Version δ)),
      (mergeRows alignment table.rows batches).lake = batches.foldl mergeInto table.rows := by
    intro batches
    unfold mergeRows mergeBatches
    rw [staged, align, lake_foldl_mergeBatch]
  have pending : (extractWindow pipe world tick.now world.mark).pending = Splitting.batches batchRows
      (Incremental.runIncremental watermarkColumns pipe.settings pipe.kind tick.now world.mark
        world.source).rows := by
    unfold extractWindow
    rw [batches]
  unfold mergeWindow
  simp only [undisturbed, extracted, merged, pending]
  rfl

end Tick

def sampleObject : DiscoveredObject :=
  { schema := "public", name := "events"
    columns := [{ name := "id", pgType := "bigint" },
      { name := "updated_at", pgType := "timestamp with time zone" },
      { name := "created_at", pgType := "timestamp with time zone" }] }

/-- One row of second 5, as a pair of time and id. -/
def sampleTick : Tick (Int × Int) :=
  { discovered := some sampleObject
    source := { columns := sampleObject.columns
                accessors := { watermark := fun row => some row.1, id := fun row => some row.2 }
                rows := [(5000000, 1)] }
    settings := { overlapSeconds := 2, gapSeconds := 1 }, now := 20000000
    fault := none, unionApplies := true, dropRemoved := false, interruption := none }

def sampleKey (row : Int × Int) : Option Int :=
  some row.2

def sampleAlignment : Alignment sampleTick.source.accessors sampleKey :=
  { align := id, cast := some, pk_align := fun _ => rfl }

/-- The table from before `created_at` was there, and a watermark of second 9. -/
def sampleCatalog : Option (LakeTable (Int × Int)) :=
  some { schema := ["id", "updated_at"], spec := [], rows := [(5000000, 1)] }

def sampleStored : Option Row :=
  some { lastValue := some "1970-01-01T00:00:09+00:00", lastTs := none, lastId := 1 }

theorem added_column_drops_the_table : (1 : Int) ∈ keys sampleKey (lakeRows sampleCatalog) ∧
    (1 : Int) ∉ keys sampleKey
      (lakeRows (incrementalOneTable sampleTick sampleAlignment sampleStored sampleCatalog).catalog) := by
  decide

end IncrementalJob
end WarehouseSync

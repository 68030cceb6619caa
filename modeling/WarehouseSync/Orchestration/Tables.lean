import WarehouseSync.Extract.Schema
import WarehouseSync.Load.IcebergWriter

namespace WarehouseSync
namespace Tables

open IcebergWriter Schema

/-!
# Object configuration (`orchestration/tables.py`, `extract/discovery.py`)

What a table is partitioned by, chunked by and synchronised by is derived from
the columns that discovery saw, without any stored configuration.
-/

/-- What `_introspect` returns for a table or a view, as far as the jobs read it. -/
structure DiscoveredObject where
  schema : String
  name : String
  columns : List Column
deriving DecidableEq, Repr

/-- The configuration of one object.  It is derived from the discovered columns, so
a column that is added or dropped at the source changes it without anybody editing
it. -/
structure TableConfig where
  schema : String
  table : String
  partitionBy : List PartitionBy
  watermarkColumn : Option String
  pk : String
  supportsParallelChunking : Bool
deriving DecidableEq, Repr

def TableConfig.fqn (cfg : TableConfig) : String :=
  cfg.schema ++ "." ++ cfg.table

/-- The name of the lake table; the schema of the source becomes a part of it, since
a connection has a single namespace. -/
def TableConfig.icebergTableName (cfg : TableConfig) : String :=
  cfg.schema ++ "__" ++ cfg.table

/-- An object without a watermark column is only ever reloaded, and the incremental
job passes it over. -/
def TableConfig.supportsIncremental (cfg : TableConfig) : Bool :=
  cfg.watermarkColumn.isSome

/-- The columns `_protected` or `protected_cols` of the jobs, which are not dropped
from the lake even if the source has dropped them. -/
def TableConfig.protectedColumns (cfg : TableConfig) : List String :=
  cfg.pk :: (cfg.watermarkColumn.toList ++ cfg.partitionBy.map (fun entry => entry.column))

def DiscoveredObject.find (object : DiscoveredObject) (name : String) : Option Column :=
  object.columns.find? (fun column => column.name == name)

/-- Ranges of ids are only planned for integer ids.  Any other `id` is loaded in one
chunk, or in one for every day. -/
def DiscoveredObject.supportsParallelChunking (object : DiscoveredObject) : Bool :=
  match object.find "id" with
  | none => false
  | some column => ["smallint", "integer", "bigint"].contains (lower column.pgType)

/-- Both columns are looked for by name, whatever their types are, so the type of
`updated_at` is only noticed when the watermark is compared. -/
def DiscoveredObject.supportsIncremental (object : DiscoveredObject) : Bool :=
  (object.find "id").isSome && (object.find "updated_at").isSome

/-- `_default_partition_for`: by day of `created_at`, if that is a timestamp of some
kind.  The test is on the beginning of the type's name, which a precision or a time
zone follows. -/
def defaultPartitionFor (object : DiscoveredObject) : List PartitionBy :=
  match object.find "created_at" with
  | some column =>
      if startsWith (lower column.pgType) "timestamp" = true then
        [{ column := "created_at", transform := "day", buckets := none }]
      else []
  | none => []

/-- `_config_from_object`; the table of overrides is empty.  The key is always `id`,
even for an object that has no such column. -/
def configFromObject (object : DiscoveredObject) : TableConfig :=
  { schema := object.schema
    table := object.name
    partitionBy := defaultPartitionFor object
    watermarkColumn := if object.supportsIncremental = true then some "updated_at" else none
    pk := "id"
    supportsParallelChunking := object.supportsParallelChunking }

end Tables
end WarehouseSync

import WarehouseSync.Extract.CopyWorker
import Mathlib.Data.Finset.Dedup

namespace WarehouseSync
namespace IcebergWriter

open CopyWorker

/-!
# Lake tables in the catalog (`load/iceberg_writer.py`)

A lake table has a schema, a partition spec, rows, and the paths of the data
files that `add_files` has registered.  The catalog maps the name of a table to
it, so for one table it is an optional value.  `create_or_get_table` hands back
the registered table only if its partition spec has the signature that is asked
for; otherwise it drops the table and creates an empty one.

`add_files` does not look at rows, so it never notices that a row is there
already.  It does look at paths: files that the table references are refused.
-/

universe u

/-- The transforms of a partition spec.  Those that the writer never builds are here
too, because a table that was made by other means is compared with the configuration
all the same. -/
inductive Transform where
  | identity
  | day
  | month
  | year
  | hour
  | bucket (buckets : Nat)
  | truncate (width : Nat)
deriving DecidableEq, Repr

/-- `_TRANSFORM_CLASS_TO_NAME`. -/
def Transform.name : Transform -> String
  | .identity => "identity"
  | .day => "day"
  | .month => "month"
  | .year => "year"
  | .hour => "hour"
  | .bucket _ => "bucket"
  | .truncate _ => "truncate"

/-- A field of the partition spec of a table.  Its id and its name differ between
create calls, so they are kept but never compared with the configuration. -/
structure PartitionField where
  source : String
  fieldId : Nat
  transform : Transform
  name : String
deriving DecidableEq, Repr

/-- An entry of a `partition_by` configuration.  The transform is a text, as it is
in the configuration, since a misspelt one is only noticed when the spec is built.
-/
structure PartitionBy where
  column : String
  transform : String
  buckets : Option Nat
deriving DecidableEq, Repr

/-- The current snapshot of a table.  Its rows are kept apart from the paths,
since an overwrite replaces rows without the caller naming any file; the paths
are only read by the check that `add_files` makes before it appends. -/
structure LakeTable (ρ : Type u) where
  schema : List String
  spec : List PartitionField
  rows : List ρ
  paths : List String := []

variable {ρ : Type u}

/-- `_table_spec_signature`: a set, so neither the order of the fields nor the
number of buckets takes part in the comparison. -/
def specSignature (spec : List PartitionField) : Finset (String × String) :=
  (spec.map (fun field => (field.source, field.transform.name))).toFinset

/-- The signature of a configuration, in the form in which that of a table is taken;
the bucket count is left out here as well. -/
def desiredSignature (partitionBy : List PartitionBy) : Finset (String × String) :=
  (partitionBy.map (fun entry => (entry.column, entry.transform))).toFinset

/-- One field of `_build_partition_spec`.  The column is looked up before the
transform is read, so an entry that is wrong in both ways is reported for its
column. -/
def buildPartitionField (schema : List String) (index : Nat) (entry : PartitionBy) :
    Except String PartitionField :=
  if entry.column ∉ schema then 
    .error ("Could not find field with name " ++ entry.column ++ ", case_sensitive=True")
  else if entry.transform = "identity" then
    .ok { source := entry.column, fieldId := index, transform := .identity, name := entry.column }
  else if entry.transform = "day" then
    .ok { source := entry.column, fieldId := index, transform := .day, name := entry.column ++ "_day" }
  else if entry.transform = "bucket" then
    match entry.buckets with
    | none | some 0 => .error "bucket transform requires n_buckets"
    | some (buckets + 1) =>
        .ok { source := entry.column, fieldId := index, transform := .bucket (buckets + 1),
              name := entry.column ++ "_bucket" }
  else .error ("unknown transform: " ++ entry.transform)

/-- `_build_partition_spec`; field ids count from 1000. -/
def buildPartitionSpec (schema : List String) : Nat -> List PartitionBy ->
    Except String (List PartitionField)
  | _, [] => .ok []
  | index, entry :: entries => do
      let field <- buildPartitionField schema index entry
      let fields <- buildPartitionSpec schema (index + 1) entries
      .ok (field :: fields)

/-- Why `load_table` fails for a registered table: the metadata location in the
catalog, if it can be read, and whether the object is seen in S3.  Both are what the
helper asks for before it decides that the entry is an orphan. -/
structure LoadFault where
  metadataLocation : Option String
  objectExists : Bool
deriving DecidableEq, Repr

/-- The registered table is orphaned: its metadata is confirmed missing.  An entry
without a location is left alone, while a request to S3 that fails for whatever
reason counts as a missing object. -/
def LoadFault.orphaned (fault : LoadFault) : Bool :=
  match fault.metadataLocation with
  | none => false
  | some location => location != "" && !fault.objectExists

/-- The catalog entry after the call, and the error the call ends with, if any.  On
success the table handed back is the one in the catalog, so it is not repeated here.
-/
structure Created (ρ : Type u) where
  catalog : Option (LakeTable ρ)
  error : Option String

/-- Create an empty table; there is no entry of its name any more.  When the spec
cannot be built, the error comes after an earlier entry was dropped, which is why no
entry is left. -/
def createTable (schema : List String) (partitionBy : List PartitionBy) : Created ρ :=
  match buildPartitionSpec schema 1000 partitionBy with
  | .error message => { catalog := none, error := some message }
  | .ok spec => { catalog := some { schema := schema, spec := spec, rows := [] }, error := none }

def createOrGetTable (schema : List String) (partitionBy : List PartitionBy)
    (fault : Option LoadFault) (catalog : Option (LakeTable ρ)) : Created ρ :=
  match catalog, fault with
  | none, _ => createTable schema partitionBy
  | some table, some fault =>
      if fault.orphaned = true then createTable schema partitionBy
      else { catalog := some table, error := some "load_table failed" }
  | some table, none =>
      if desiredSignature partitionBy = specSignature table.spec then
        { catalog := some table, error := none }
      else createTable schema partitionBy

/-- The call leaves a registered table alone: it hands it back, or raises since it
could not be loaded although it is there.  In every other case the rows of that
table are gone from the catalog. -/
def keepsTable (partitionBy : List PartitionBy) (fault : Option LoadFault)
    (catalog : Option (LakeTable ρ)) : Bool :=
  match catalog, fault with
  | none, _ => false
  | some _, some fault => !fault.orphaned
  | some table, none => decide (desiredSignature partitionBy = specSignature table.spec)

/-- `evolve_table_schema`.  A union that fails is skipped, and columns that the
source dropped are only dropped when the setting asks for it, and never when they
are protected or partitioned by.  Only the names of the columns are followed here;
their types have a module of their own. -/
def evolveTableSchema (source protectedColumns : List String) (unionApplies dropRemoved : Bool)
    (table : LakeTable ρ) : LakeTable ρ :=
  let union := if unionApplies = true then
    table.schema ++ source.filter (fun name => decide (name ∉ table.schema)) else table.schema
  let kept := protectedColumns ++ table.spec.map (fun field => field.source)
  { table with
    schema :=
      if dropRemoved = true then union.filter (fun name => decide (name ∈ source ∨ name ∈ kept))
      else union }

/-- The paths under which `add_files` registers the files. -/
def filePaths (files : List (DataFile ρ)) : List String :=
  files.map (fun file => file.uri)

/-- PyIceberg's `add_files` with its default `check_duplicate_files`.  It refuses
paths that are given twice or that the table references already, and files whose
schema it finds incompatible with that of the table; whether it does is an input
here, since it depends on types that a table of this model does not have. -/
def addFiles (compatible : Bool) (files : List (DataFile ρ)) (table : LakeTable ρ) : Option (LakeTable ρ) :=
  if (filePaths files).Nodup ∧ (forall path, path ∈ filePaths files -> path ∉ table.paths) ∧ compatible = true then
    some { table with rows := table.rows ++ fileRows files, paths := table.paths ++ filePaths files }
  else none

/-- `commit_files_with_retry` without other writers.  A commit without files does
not even load the table; otherwise an error of `add_files` is one of the call,
because only a commit conflict is retried. -/
def commitFilesWithRetry (compatible : Bool) (files : List (DataFile ρ)) (catalog : Option (LakeTable ρ)) :
    Option (Option (LakeTable ρ)) :=
  if files.isEmpty then some catalog
  else (catalog.bind (addFiles compatible files)).map some

/-! ## Specs are built with the signature that is compared -/

theorem buildPartitionField_signature {schema : List String} {index : Nat} {entry : PartitionBy}
    {field : PartitionField} (built : buildPartitionField schema index entry = .ok field) :
    (field.source, field.transform.name) = (entry.column, entry.transform) := by
  unfold buildPartitionField at built
  by_cases known : entry.column ∉ schema
  · rw [if_pos known] at built
    cases built
  · rw [if_neg known] at built
    by_cases identity : entry.transform = "identity"
    · rw [if_pos identity] at built
      cases built
      rw [identity]
      rfl
    · rw [if_neg identity] at built
      by_cases day : entry.transform = "day"
      · rw [if_pos day] at built
        cases built
        rw [day]
        rfl
      · rw [if_neg day] at built
        by_cases bucket : entry.transform = "bucket"
        · rw [if_pos bucket] at built
          split at built
          · cases built
          · cases built
          · cases built
            rw [bucket]
            rfl
        · rw [if_neg bucket] at built
          cases built

theorem signature_buildPartitionSpec {schema : List String} {index : Nat} {entries : List PartitionBy}
    {fields : List PartitionField} (built : buildPartitionSpec schema index entries = .ok fields) :
    specSignature fields = desiredSignature entries := by
  rw [specSignature, desiredSignature]
  congr 1
  induction entries generalizing index fields with
  | nil =>
      cases built
      rfl
  | cons entry entries ih =>
      rw [buildPartitionSpec] at built
      cases first : buildPartitionField schema index entry with
      | error message =>
          rw [first] at built
          cases built
      | ok field =>
          cases rest : buildPartitionSpec schema (index + 1) entries with
          | error message =>
              rw [first, rest] at built
              cases built
          | ok others =>
              rw [first, rest] at built
              cases built
              rw [List.map_cons, List.map_cons, buildPartitionField_signature first, ih rest]

/-- The table of a call that succeeds has the signature asked for. -/
theorem signature_createTable {schema : List String} {partitionBy : List PartitionBy}
    {table : LakeTable ρ} (created : (createTable schema partitionBy : Created ρ).catalog = some table) :
    specSignature table.spec = desiredSignature partitionBy ∧ table.rows = [] := by
  rw [createTable] at created
  cases built : buildPartitionSpec schema 1000 partitionBy with
  | error message =>
      rw [built] at created
      cases created
  | ok spec =>
      rw [built] at created
      cases created
      exact ⟨signature_buildPartitionSpec built, rfl⟩

theorem createOrGetTable_kept {schema : List String} {partitionBy : List PartitionBy}
    {fault : Option LoadFault} {catalog : Option (LakeTable ρ)}
    (kept : keepsTable partitionBy fault catalog = true) :
    (createOrGetTable schema partitionBy fault catalog).catalog = catalog := by
  unfold keepsTable at kept
  unfold createOrGetTable
  split at kept
  · cases kept
  · rename_i table fault
    have alive : ¬ fault.orphaned = true := by simpa using kept
    simp only [if_neg alive]
  · simp only [if_pos (of_decide_eq_true kept)]

theorem createOrGetTable_created {schema : List String} {partitionBy : List PartitionBy}
    {fault : Option LoadFault} {catalog : Option (LakeTable ρ)}
    (dropped : keepsTable partitionBy fault catalog = false) :
    createOrGetTable schema partitionBy fault catalog = createTable schema partitionBy := by
  unfold keepsTable at dropped
  unfold createOrGetTable
  split at dropped
  · rfl
  · rename_i table fault
    have orphaned : fault.orphaned = true := by simpa using dropped
    simp only [if_pos orphaned]
  · simp only [if_neg (of_decide_eq_false dropped)]

/-- A table that was created for a configuration is kept for the same one. -/
theorem keepsTable_of_createTable {schema : List String} {partitionBy : List PartitionBy}
    {table grown : LakeTable ρ} (created : (createTable schema partitionBy : Created ρ).catalog = some table)
    (spec : grown.spec = table.spec) : keepsTable partitionBy none (some grown) = true := by
  apply decide_eq_true
  rw [spec, (signature_createTable created).1]

@[simp] theorem rows_evolveTableSchema (source protectedColumns : List String)
    (unionApplies dropRemoved : Bool) (table : LakeTable ρ) :
    (evolveTableSchema source protectedColumns unionApplies dropRemoved table).rows = table.rows := rfl

@[simp] theorem spec_evolveTableSchema (source protectedColumns : List String)
    (unionApplies dropRemoved : Bool) (table : LakeTable ρ) :
    (evolveTableSchema source protectedColumns unionApplies dropRemoved table).spec = table.spec := rfl

theorem addFiles_eq_some {compatible : Bool} {files : List (DataFile ρ)} {table after : LakeTable ρ}
    (added : addFiles compatible files table = some after) :
    after = { table with rows := table.rows ++ fileRows files, paths := table.paths ++ filePaths files } := by
  unfold addFiles at added
  split at added
  · exact (Option.some.inj added).symm
  · cases added

/-- A commit that succeeds leaves the table with the rows of the files. -/
theorem commitFilesWithRetry_eq_some {compatible : Bool} {files : List (DataFile ρ)} {table : LakeTable ρ}
    {catalog : Option (LakeTable ρ)}
    (committed : commitFilesWithRetry compatible files (some table) = some catalog) :
    Exists fun after : LakeTable ρ => catalog = some after ∧ after.rows = table.rows ++ fileRows files ∧
      after.spec = table.spec := by
  cases files with
  | nil =>
      cases committed
      exact ⟨table, rfl, (List.append_nil _).symm, rfl⟩
  | cons file files =>
      rcases Option.map_eq_some_iff.mp committed with ⟨after, added, rfl⟩
      have same := addFiles_eq_some added
      subst same
      exact ⟨_, rfl, rfl, rfl⟩

/-- Files that are in the table are refused from then on. -/
theorem commitFilesWithRetry_again {compatible : Bool} {file : DataFile ρ} {files : List (DataFile ρ)}
    {table after : LakeTable ρ}
    (committed : commitFilesWithRetry compatible (file :: files) (some table) = some (some after)) :
    commitFilesWithRetry compatible (file :: files) (some after) = none := by
  rcases Option.map_eq_some_iff.mp committed with ⟨same, added, equal⟩
  cases equal
  have grown := addFiles_eq_some added
  have listed : file.uri ∈ filePaths (file :: files) := List.mem_cons_self
  have registered : file.uri ∈ after.paths := by
    rw [grown]
    exact List.mem_append_right _ listed
  have refused : addFiles compatible (file :: files) after = none :=
    if_neg (fun checks => checks.2.1 file.uri listed registered)
  change ((some after).bind (addFiles compatible (file :: files))).map some = none
  rw [Option.bind_some, refused]
  rfl

end IcebergWriter
end WarehouseSync

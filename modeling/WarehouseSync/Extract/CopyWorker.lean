import WarehouseSync.Extract.Chunker
import WarehouseSync.State.Chunks

namespace WarehouseSync
namespace CopyWorker

open Chunker

/-!
# Copying one chunk (`extract/copy_worker.py`)

The rows a chunk selects are streamed into row groups, and the row groups into
parquet parts of their own object keys.  A file is modelled with the rows it
holds, since they are what committing it adds to the lake.
-/

universe u

variable {ρ : Type u}

/-- A file of a chunk.  Its rows are kept as they are, since what becomes of a value
in parquet is settled column by column elsewhere. -/
structure DataFile (ρ : Type u) where
  uri : String
  rows : List ρ
deriving DecidableEq

/-- What a worker returns: where the rows of the chunk are now, and how many there
were. -/
structure ChunkResult (ρ : Type u) where
  chunkId : Nat
  table : String
  files : List (DataFile ρ)
  rows : Nat

/-- The settings that size chunks, row groups and parts. -/
structure Settings where
  extractRowsPerChunk : Int
  extractRowGroupRows : Int

/-- The loop over the rows of a COPY: flush a full batch into the open part, and
finish the part when a flush took it to the limit.  What is left at the end is one
more part, unless it is empty. -/
def partsFrom (groupRows partLimit : Nat) : List ρ -> List ρ -> List ρ -> List (List ρ)
  | part, batch, [] => if (part ++ batch).isEmpty then [] else [part ++ batch]
  | part, batch, row :: rows =>
      if groupRows ≤ (batch ++ [row]).length then
        if partLimit ≤ (part ++ (batch ++ [row])).length then
          (part ++ (batch ++ [row])) :: partsFrom groupRows partLimit [] [] rows
        else partsFrom groupRows partLimit (part ++ (batch ++ [row])) [] rows
      else partsFrom groupRows partLimit part (batch ++ [row]) rows

def parts (settings : Settings) (rows : List ρ) : List (List ρ) :=
  let groupRows := (max 1 settings.extractRowGroupRows).toNat
  partsFrom groupRows (max groupRows settings.extractRowsPerChunk.toNat) [] [] rows

/-- The object key of a part, below the raw prefix of the connection.  Neither the
attempt nor the time is in it: a retry of the chunk overwrites what the attempt
before it has uploaded. -/
def partUri (bucket rawPrefix s3Prefix : String) (chunkId partIndex : Nat) : String :=
  "s3://" ++ bucket ++ "/" ++ rawPrefix ++ "/" ++ s3Prefix ++ "/chunk=" ++ Chunks.zeroPad 6 chunkId ++
    "-part" ++ Chunks.zeroPad 4 partIndex ++ ".parquet"

/-- The result of copying a chunk out of a table with these rows.  This is the loop
in closed form; that the loop with its variables computes it is proved beside the
loop. -/
def extractChunkToS3 (columns : SourceColumns ρ) (settings : Settings)
    (bucket rawPrefix s3Prefix : String) (chunk : Chunk) (rows : List ρ) : ChunkResult ρ :=
  let selected := rows.filter (chunk.selects columns)
  { chunkId := chunk.chunkId
    table := chunk.fqn
    files := (parts settings selected).mapIdx (fun index part =>
      { uri := partUri bucket rawPrefix s3Prefix chunk.chunkId index, rows := part })
    rows := selected.length }

/-- The rows that committing the files adds, in the order of the files.  A commit of
a file is atomic, so that it is this list that a table grows by. -/
def fileRows (files : List (DataFile ρ)) : List ρ :=
  files.flatMap (fun file => file.rows)

theorem flatten_partsFrom (groupRows partLimit : Nat) (part batch rows : List ρ) :
    (partsFrom groupRows partLimit part batch rows).flatten = part ++ batch ++ rows := by
  induction rows generalizing part batch with
  | nil =>
      rw [partsFrom]
      cases whole : part ++ batch with
      | nil => simp
      | cons head tail => simp
  | cons row rows ih =>
      rw [partsFrom]
      by_cases full : groupRows ≤ (batch ++ [row]).length
      · rw [if_pos full]
        by_cases finished : partLimit ≤ (part ++ (batch ++ [row])).length
        · rw [if_pos finished, List.flatten_cons, ih]
          simp
        · rw [if_neg finished, ih]
          simp
      · rw [if_neg full, ih]
        simp

/-- The files of a chunk hold the rows it selects, in the order of the COPY. -/
theorem fileRows_extractChunkToS3 (columns : SourceColumns ρ) (settings : Settings)
    (bucket rawPrefix s3Prefix : String) (chunk : Chunk) (rows : List ρ) :
    fileRows (extractChunkToS3 columns settings bucket rawPrefix s3Prefix chunk rows).files =
      rows.filter (chunk.selects columns) := by
  have flat (pieces : List (List ρ)) : fileRows (pieces.mapIdx (fun index part =>
      { uri := partUri bucket rawPrefix s3Prefix chunk.chunkId index, rows := part })) = pieces.flatten := by
    rw [fileRows, List.flatMap_def]
    congr 1
    apply List.ext_getElem (by simp)
    intro index left right
    simp
  rw [extractChunkToS3, flat, parts, flatten_partsFrom]
  rfl

end CopyWorker
end WarehouseSync

import WarehouseSync.Extract.CopyWorker

namespace WarehouseSync
namespace CopyLoop

open Chunker CopyWorker

/-!
# Splitting a chunk into parts

The loop of `extract_chunk_to_s3` with its counters: rows gather in a batch,
batches in the open part, and parts are uploaded.  A batch is flushed when it has
the rows of a row group, and the part is finished when a flush took it to the
limit; what is left at the end is flushed and finished by code of its own.
-/

universe u

variable {ρ : Type u}

/-- The variables of the loop, with the rows that the open parquet writer got.  The
rows of the open part and of the batch are kept apart, as they are in the code: the
limits are checked on a batch that is flushed and not row by row. -/
structure Loop (ρ : Type u) where
  uploaded : List (DataFile ρ)
  rowsWritten : Nat
  partIdx : Nat
  partRows : Nat
  part : List ρ
  batch : List ρ

def rowGroupRows (settings : Settings) : Int :=
  max 1 settings.extractRowGroupRows

def partRowsLimit (settings : Settings) : Int :=
  max (rowGroupRows settings) settings.extractRowsPerChunk

def start : Loop ρ :=
  { uploaded := [], rowsWritten := 0, partIdx := 0, partRows := 0, part := [], batch := [] }

namespace Loop

/-- `batch.append`. -/
def append (loop : Loop ρ) (row : ρ) : Loop ρ :=
  { loop with batch := loop.batch ++ [row] }

/-- `_flush_batch` and the counters after it.  The batch goes to the open part as it
is, and no row is looked at again. -/
def flush (loop : Loop ρ) : Loop ρ :=
  { loop with
    rowsWritten := loop.rowsWritten + loop.batch.length
    partRows := loop.partRows + loop.batch.length
    part := loop.part ++ loop.batch
    batch := [] }

/-- `_finish_part`, and the next part.  A part is uploaded whole under an index of
its own, so that a part that is uploaded is never written again. -/
def finishPart (uri : Nat -> String) (loop : Loop ρ) : Loop ρ :=
  { loop with
    uploaded := loop.uploaded ++ [{ uri := uri loop.partIdx, rows := loop.part }]
    partIdx := loop.partIdx + 1
    partRows := 0
    part := [] }

end Loop

section Run

variable (settings : Settings) (uri : Nat -> String)

/-- One row of the stream.  The part is closed only where a batch has just been
flushed, which is why a part may exceed its limit by less than a batch. -/
def step (loop : Loop ρ) (row : ρ) : Loop ρ :=
  let filled := loop.append row
  if rowGroupRows settings ≤ filled.batch.length then
    let flushed := filled.flush
    if partRowsLimit settings ≤ flushed.partRows then flushed.finishPart uri else flushed
  else filled

/-- The state after the rows of a stream. -/
def after (stream : List ρ) : Loop ρ :=
  stream.foldl (step settings uri) start

/-- The code after the loop.  A part without rows is closed without an upload, so
that an empty stream leaves no file. -/
def finish (loop : Loop ρ) : Loop ρ :=
  let flushed := if loop.batch.isEmpty = true then loop else loop.flush
  if 0 < flushed.partRows then flushed.finishPart uri else flushed

/-- The batches that occur: those between two rows, and those with a row just
appended.  Memory is bounded by these and not by the parts, which the writer has put
out already. -/
inductive Buffered (stream : List ρ) : List ρ -> Prop where
  | between {seen rest : List ρ} : stream = seen ++ rest -> Buffered stream (after settings uri seen).batch
  | appended {seen rest : List ρ} {row : ρ} : stream = seen ++ row :: rest ->
      Buffered stream ((after settings uri seen).append row).batch

end Run

/-- Copy the rows of a chunk's COPY.  The names of the parts are those of the chunk,
so that a chunk that is copied again writes the same objects. -/
def copyStream (settings : Settings) (bucket rawPrefix s3Prefix : String) (chunk : Chunk)
    (stream : List ρ) : ChunkResult ρ :=
  let uri := partUri bucket rawPrefix s3Prefix chunk.chunkId
  let last := finish uri (after settings uri stream)
  { chunkId := chunk.chunkId, table := chunk.fqn, files := last.uploaded, rows := last.rowsWritten }

/-- What is to hold of the copy of a stream: no row is lost or moved, no file is
empty, the names differ, files and batches are bounded, and the count is that of the
rows. -/
structure SplitsWell (settings : Settings) (uri : Nat -> String) (stream : List ρ)
    (result : ChunkResult ρ) : Prop where
  lossless : fileRows result.files = stream
  nonempty : forall file, file ∈ result.files -> file.rows ≠ []
  distinct : (result.files.map (fun file => file.uri)).Nodup
  bounded : forall file, file ∈ result.files ->
    (file.rows.length : Int) < partRowsLimit settings + rowGroupRows settings
  buffered : forall batch, Buffered settings uri stream batch -> (batch.length : Int) ≤ rowGroupRows settings
  counted : result.rows = stream.length

/-- The rows seen are in the uploaded parts, the open part and the batch, in this
order, and the counters count them.  It holds at every point of the loop, also where
a limit has just been reached. -/
structure Accounts (settings : Settings) (uri : Nat -> String) (seen : List ρ) (loop : Loop ρ) : Prop where
  lossless : fileRows loop.uploaded ++ (loop.part ++ loop.batch) = seen
  nonempty : forall file, file ∈ loop.uploaded -> file.rows ≠ []
  uris : loop.uploaded.map (fun file => file.uri) = (List.range loop.partIdx).map uri
  bounded : forall file, file ∈ loop.uploaded ->
    (file.rows.length : Int) < partRowsLimit settings + rowGroupRows settings
  counted : loop.rowsWritten + loop.batch.length = seen.length
  partCounted : loop.partRows = loop.part.length

/-- Between two rows neither the batch nor the part is full.  This is more than
`Accounts`, and it is what bounds the next part. -/
structure Invariant (settings : Settings) (uri : Nat -> String) (seen : List ρ) (loop : Loop ρ) : Prop
    extends Accounts settings uri seen loop where
  batchOpen : (loop.batch.length : Int) < rowGroupRows settings
  partOpen : (loop.part.length : Int) < partRowsLimit settings

section Keeps

variable {settings : Settings} {uri : Nat -> String} {seen : List ρ} {loop : Loop ρ}

theorem one_le_rowGroupRows (settings : Settings) : 1 ≤ rowGroupRows settings :=
  le_max_left _ _

theorem rowGroupRows_le_limit (settings : Settings) : rowGroupRows settings ≤ partRowsLimit settings :=
  le_max_left _ _

theorem accounts_append (accounts : Accounts settings uri seen loop) (row : ρ) :
    Accounts settings uri (seen ++ [row]) (loop.append row) :=
  { lossless := by
      rw [← accounts.lossless]
      simp [Loop.append]
    nonempty := accounts.nonempty
    uris := accounts.uris
    bounded := accounts.bounded
    counted := by
      have counted := accounts.counted
      simp only [Loop.append, List.length_append, List.length_singleton]
      omega
    partCounted := accounts.partCounted }

theorem accounts_flush (accounts : Accounts settings uri seen loop) :
    Accounts settings uri seen loop.flush :=
  { lossless := by
      rw [← accounts.lossless]
      simp [Loop.flush]
    nonempty := accounts.nonempty
    uris := accounts.uris
    bounded := accounts.bounded
    counted := accounts.counted
    partCounted := by
      have counted := accounts.partCounted
      simp only [Loop.flush, List.length_append]
      omega }

/-- A part may be finished when it has rows, but not too many. -/
theorem accounts_finishPart (accounts : Accounts settings uri seen loop) (rows : loop.part ≠ [])
    (few : (loop.part.length : Int) < partRowsLimit settings + rowGroupRows settings) :
    Accounts settings uri seen (loop.finishPart uri) :=
  { lossless := by
      rw [← accounts.lossless]
      simp [Loop.finishPart, fileRows]
    nonempty := by
      intro file member
      rcases List.mem_append.mp member with before | last
      · exact accounts.nonempty file before
      · rw [List.mem_singleton.mp last]
        exact rows
    uris := by
      simp only [Loop.finishPart, List.map_append, List.range_succ, accounts.uris]
      rfl
    bounded := by
      intro file member
      rcases List.mem_append.mp member with before | last
      · exact accounts.bounded file before
      · rw [List.mem_singleton.mp last]
        exact few
    counted := accounts.counted
    partCounted := rfl }

/-- One row keeps the invariant: whichever of the two thresholds it reaches, the
part that is finished had room before the row group came. -/
theorem invariant_step (holds : Invariant settings uri seen loop) (row : ρ) :
    Invariant settings uri (seen ++ [row]) (step settings uri loop row) := by
  have filled := accounts_append holds.toAccounts row
  have one := one_le_rowGroupRows settings
  have limit := rowGroupRows_le_limit settings
  have batchRoom := holds.batchOpen
  have partRoom := holds.partOpen
  have partCounted := holds.partCounted
  have length : (loop.append row).batch.length = loop.batch.length + 1 := by simp [Loop.append]
  simp only [step]
  by_cases full : rowGroupRows settings ≤ ((loop.append row).batch.length : Int)
  · rw [if_pos full]
    have flushed := accounts_flush filled
    have grown : (loop.append row).flush.part.length = loop.part.length + (loop.batch.length + 1) := by
      simp [Loop.flush, Loop.append]
    by_cases finished : partRowsLimit settings ≤ ((loop.append row).flush.partRows : Int)
    · rw [if_pos finished]
      have rows : (loop.append row).flush.part ≠ [] := by
        apply List.ne_nil_of_length_pos
        omega
      have few : ((loop.append row).flush.part.length : Int) <
          partRowsLimit settings + rowGroupRows settings := by omega
      exact {
        toAccounts := accounts_finishPart flushed rows few
        batchOpen := lt_of_lt_of_le Int.zero_lt_one one
        partOpen := lt_of_lt_of_le Int.zero_lt_one (one.trans limit) }
    · rw [if_neg finished]
      rw [flushed.partCounted] at finished
      exact {
        toAccounts := flushed
        batchOpen := lt_of_lt_of_le Int.zero_lt_one one
        partOpen := not_le.mp finished }
  · rw [if_neg full]
    exact { toAccounts := filled, batchOpen := not_le.mp full, partOpen := partRoom }

theorem invariant_start (settings : Settings) (uri : Nat -> String) :
    Invariant settings uri [] (start : Loop ρ) :=
  { lossless := rfl
    nonempty := List.forall_mem_nil _
    uris := rfl
    bounded := List.forall_mem_nil _
    counted := rfl
    partCounted := rfl
    batchOpen := lt_of_lt_of_le Int.zero_lt_one (one_le_rowGroupRows settings)
    partOpen := lt_of_lt_of_le Int.zero_lt_one
      ((one_le_rowGroupRows settings).trans (rowGroupRows_le_limit settings)) }

/-- The invariant after any rows. -/
theorem invariant_foldl (rows : List ρ) (holds : Invariant settings uri seen loop) :
    Invariant settings uri (seen ++ rows) (rows.foldl (step settings uri) loop) := by
  induction rows generalizing seen loop with
  | nil =>
      rw [List.append_nil]
      exact holds
  | cons row rows ih =>
      rw [List.append_cons]
      exact ih (invariant_step holds row)

theorem invariant_after (settings : Settings) (uri : Nat -> String) (stream : List ρ) :
    Invariant settings uri stream (after settings uri stream) :=
  invariant_foldl stream (invariant_start settings uri)

/-- At the end nothing is left in the batch or in the part. -/
theorem accounts_finish (holds : Invariant settings uri seen loop) :
    Accounts settings uri seen (finish uri loop) ∧ (finish uri loop).part = [] ∧
      (finish uri loop).batch = [] := by
  have batchRoom := holds.batchOpen
  have partRoom := holds.partOpen
  have flushed : Exists fun last : Loop ρ =>
      (if loop.batch.isEmpty = true then loop else loop.flush) = last ∧ last.batch = [] ∧
        Accounts settings uri seen last ∧
          (last.part.length : Int) < partRowsLimit settings + rowGroupRows settings := by
    by_cases empty : loop.batch.isEmpty = true
    · refine ⟨loop, if_pos empty, List.isEmpty_iff.mp empty, holds.toAccounts, ?_⟩
      omega
    · refine ⟨loop.flush, if_neg empty, rfl, accounts_flush holds.toAccounts, ?_⟩
      simp only [Loop.flush, List.length_append]
      omega
  rcases flushed with ⟨last, same, drained, accounts, few⟩
  simp only [finish, same]
  by_cases rows : 0 < last.partRows
  · rw [if_pos rows]
    have some : last.part ≠ [] := by
      apply List.ne_nil_of_length_pos
      rw [← accounts.partCounted]
      exact rows
    exact ⟨accounts_finishPart accounts some few, rfl, drained⟩
  · rw [if_neg rows]
    have none : last.part = [] := by
      apply List.eq_nil_of_length_eq_zero
      rw [← accounts.partCounted]
      omega
    exact ⟨accounts, none, drained⟩

theorem length_buffered {stream batch : List ρ} (buffered : Buffered settings uri stream batch) :
    (batch.length : Int) ≤ rowGroupRows settings := by
  cases buffered with
  | @between seen rest _ => exact le_of_lt (invariant_after settings uri seen).batchOpen
  | @appended seen rest row _ =>
      have room := (invariant_after settings uri seen).batchOpen
      simp only [Loop.append, List.length_append, List.length_singleton]
      omega

end Keeps

/-! ## The copy of a stream -/

theorem rowsWritten_finish (settings : Settings) (uri : Nat -> String) (stream : List ρ) :
    (finish uri (after settings uri stream)).rowsWritten = stream.length := by
  rcases accounts_finish (invariant_after settings uri stream) with ⟨accounts, _, noBatch⟩
  have counted := accounts.counted
  rw [noBatch, List.length_nil, Nat.add_zero] at counted
  exact counted

theorem middle_injective {before behind first second : String}
    (same : before ++ first ++ behind = before ++ second ++ behind) : first = second := by
  have texts := congrArg String.toList same
  simp only [String.toList_append] at texts
  exact String.toList_injective (List.append_cancel_left (List.append_cancel_right texts))

theorem partUri_injective (bucket rawPrefix s3Prefix : String) (chunkId : Nat) :
    Function.Injective (partUri bucket rawPrefix s3Prefix chunkId) := by
  intro first second same
  exact Chunks.zeroPad_injective (middle_injective same)

theorem fileRows_copyStream (settings : Settings) (bucket rawPrefix s3Prefix : String) (chunk : Chunk)
    (stream : List ρ) :
    fileRows (copyStream settings bucket rawPrefix s3Prefix chunk stream).files = stream := by
  rcases accounts_finish (invariant_after settings (partUri bucket rawPrefix s3Prefix chunk.chunkId) stream)
    with ⟨accounts, noPart, noBatch⟩
  have lossless := accounts.lossless
  rw [noPart, noBatch, List.append_nil, List.append_nil] at lossless
  exact lossless

/-- Every stream is split into parts that hold it, under any settings. -/
theorem splits_well (settings : Settings) (bucket rawPrefix s3Prefix : String) (chunk : Chunk)
    (stream : List ρ) :
    SplitsWell settings (partUri bucket rawPrefix s3Prefix chunk.chunkId) stream
      (copyStream settings bucket rawPrefix s3Prefix chunk stream) := by
  rcases accounts_finish (invariant_after settings (partUri bucket rawPrefix s3Prefix chunk.chunkId) stream)
    with ⟨accounts, _, _⟩
  exact {
    lossless := fileRows_copyStream settings bucket rawPrefix s3Prefix chunk stream
    nonempty := accounts.nonempty
    distinct := by
      show ((finish _ _).uploaded.map (fun file => file.uri)).Nodup
      rw [accounts.uris]
      exact List.nodup_range.map (partUri_injective bucket rawPrefix s3Prefix chunk.chunkId)
    bounded := accounts.bounded
    buffered := fun _ buffered => length_buffered buffered
    counted := rowsWritten_finish settings _ stream }

section Refines

variable {settings : Settings} {uri : Nat -> String}

/-- The thresholds of `parts`, which compares natural numbers. -/
def groupSize (settings : Settings) : Nat :=
  (max 1 settings.extractRowGroupRows).toNat

def partLimit (settings : Settings) : Nat :=
  max (groupSize settings) settings.extractRowsPerChunk.toNat

theorem rowGroupRows_le_iff {count : Nat} :
    rowGroupRows settings ≤ (count : Int) ↔ groupSize settings ≤ count := by
  rw [rowGroupRows, groupSize]
  omega

theorem partRowsLimit_le_iff {count : Nat} :
    partRowsLimit settings ≤ (count : Int) ↔ partLimit settings ≤ count := by
  rw [partRowsLimit, partLimit, rowGroupRows, groupSize]
  omega

/-- Parts that are uploaded with the indices from some part on. -/
def filesFrom (uri : Nat -> String) (partIdx : Nat) (pieces : List (List ρ)) : List (DataFile ρ) :=
  pieces.mapIdx (fun index part => { uri := uri (partIdx + index), rows := part })

theorem filesFrom_cons (uri : Nat -> String) (partIdx : Nat) (piece : List ρ) (pieces : List (List ρ)) :
    filesFrom uri partIdx (piece :: pieces) =
      { uri := uri partIdx, rows := piece } :: filesFrom uri (partIdx + 1) pieces := by
  rw [filesFrom, List.mapIdx_cons, filesFrom]
  simp only [Nat.add_zero, Nat.add_assoc, Nat.add_comm 1]

theorem uploaded_finish {loop : Loop ρ} (counted : loop.partRows = loop.part.length) :
    (finish uri loop).uploaded = loop.uploaded ++ filesFrom uri loop.partIdx
      (if (loop.part ++ loop.batch).isEmpty = true then [] else [loop.part ++ loop.batch]) := by
  rcases loop with ⟨uploaded, rowsWritten, partIdx, partRows, part, batch⟩
  have same : partRows = part.length := counted
  subst same
  cases batch with
  | nil =>
      cases part with
      | nil => exact (List.append_nil uploaded).symm
      | cons row rows =>
          simp only [List.append_nil]
          rfl
  | cons row rows =>
      have rest : 0 < part.length + (row :: rows).length := Nat.add_pos_right _ (Nat.succ_pos _)
      have some : ¬ (part ++ row :: rows).isEmpty = true := by simp
      simp only [finish, List.isEmpty_cons, Bool.false_eq_true, if_false, Loop.flush, if_pos rest, if_neg some]
      rfl

/-- The parts of the rest of a stream follow those that are uploaded. -/
theorem uploaded_foldl (rows : List ρ) {loop : Loop ρ} (counted : loop.partRows = loop.part.length) :
    (finish uri (rows.foldl (step settings uri) loop)).uploaded = loop.uploaded ++
      filesFrom uri loop.partIdx
        (partsFrom (groupSize settings) (partLimit settings) loop.part loop.batch rows) := by
  induction rows generalizing loop with
  | nil => exact uploaded_finish counted
  | cons row rows ih =>
      rw [List.foldl_cons, partsFrom, step]
      simp only [rowGroupRows_le_iff, partRowsLimit_le_iff]
      by_cases full : groupSize settings ≤ (loop.batch ++ [row]).length
      · have flushed : (loop.append row).flush.partRows = (loop.part ++ (loop.batch ++ [row])).length := by
          rw [List.length_append, ← counted]
          rfl
        rw [if_pos full, flushed, if_pos (show groupSize settings ≤ (loop.append row).batch.length from full)]
        by_cases finished : partLimit settings ≤ (loop.part ++ (loop.batch ++ [row])).length
        · rw [if_pos finished, if_pos finished, ih rfl, filesFrom_cons, List.append_cons]
          rfl
        · rw [if_neg finished, if_neg finished, ih flushed]
          rfl
      · rw [if_neg full, if_neg (show ¬ groupSize settings ≤ (loop.append row).batch.length from full)]
        exact ih counted

/-- The copy of a chunk is the loop on the rows that the chunk selects. -/
theorem extractChunkToS3_eq (columns : SourceColumns ρ) (settings : Settings)
    (bucket rawPrefix s3Prefix : String) (chunk : Chunk) (rows : List ρ) :
    extractChunkToS3 columns settings bucket rawPrefix s3Prefix chunk rows =
      copyStream settings bucket rawPrefix s3Prefix chunk (rows.filter (chunk.selects columns)) := by
  have uploaded := @uploaded_foldl ρ settings (partUri bucket rawPrefix s3Prefix chunk.chunkId)
    (rows.filter (chunk.selects columns)) start rfl
  have first (pieces : List (List ρ)) : filesFrom (partUri bucket rawPrefix s3Prefix chunk.chunkId) 0 pieces =
      pieces.mapIdx (fun index part =>
        { uri := partUri bucket rawPrefix s3Prefix chunk.chunkId index, rows := part }) := by
    simp only [filesFrom, Nat.zero_add]
  simp only [copyStream, extractChunkToS3, rowsWritten_finish]
  rw [after, uploaded]
  simp only [start, List.nil_append, first]
  rfl

end Refines

end CopyLoop
end WarehouseSync

import WarehouseSync.Library.DecimalText
import WarehouseSync.Library.JoinedNames
import Mathlib.Data.List.Basic

namespace WarehouseSync
namespace Chunks

/-!
# Per-chunk run state (`state/chunks.py`)

`pipeline_chunk_state` is the list of its rows, keyed by run and chunk.  A put
is an upsert that keeps the file and row count a record does not mention.
-/

inductive Status where
  | pending
  | running
  | done
  | failed
deriving DecidableEq, Repr

/-- A row of `pipeline_chunk_state`.  The run id is part of its key, so that what
one run has finished says nothing to the next. -/
structure ChunkRecord where
  runId : String
  chunkKey : String
  status : Status
  connectionId : Int
  s3Uri : Option String
  rows : Option Nat
  error : Option String
deriving DecidableEq, Repr

/-- A number with leading zeros up to a least width.  A longer number is not cut, so
that keys stay different beyond six digits. -/
def zeroPad (width value : Nat) : String :=
  let digits := Nat.toDigits 10 value
  String.ofList (List.replicate (width - digits.length) '0' ++ digits)

def chunkKey (tableFqn : String) (chunkId : Nat) : String :=
  tableFqn ++ "#" ++ zeroPad 6 chunkId

/-- The error text as stored: cut to 2000 characters, NULL when empty. -/
def storedError (error : Option String) : Option String :=
  let text := String.ofList ((error.getD "").toList.take 2000)
  if text = "" then none else some text

/-- The row an upsert leaves in place of the row it conflicts with.  The file and
the row count survive a later write that does not name them, while the status and
the error are always the last ones. -/
def merged (old new : ChunkRecord) : ChunkRecord :=
  { old with
    status := new.status
    s3Uri := new.s3Uri.orElse (fun _ => old.s3Uri)
    rows := new.rows.orElse (fun _ => old.rows)
    error := storedError new.error }

/-- The primary key of the table. -/
def ChunkRecord.sameKey (record : ChunkRecord) (runId key : String) : Bool :=
  record.runId == runId && record.chunkKey == key

/-- The upsert of a record.  The key of the table is the run and the chunk, and the
connection of an existing row is not changed. -/
def put (record : ChunkRecord) (stored : List ChunkRecord) : List ChunkRecord :=
  if stored.any (fun old => old.sameKey record.runId record.chunkKey) then
    stored.map (fun old => if old.sameKey record.runId record.chunkKey then merged old record else old)
  else stored ++ [{ record with error := storedError record.error }]

/-- The chunks of a run that need not be copied again.  A record of another status
counts like none. -/
def listDone (runId : String) (stored : List ChunkRecord) : List String :=
  (stored.filter (fun record => record.runId == runId && record.status == Status.done)).map
    (fun record => record.chunkKey)

theorem mem_listDone {runId key : String} {stored : List ChunkRecord} :
    key ∈ listDone runId stored ↔ Exists fun record : ChunkRecord =>
      record ∈ stored ∧ record.sameKey runId key = true ∧ record.status = Status.done := by
  simp only [listDone, List.mem_map, List.mem_filter, ChunkRecord.sameKey, Bool.and_eq_true, beq_iff_eq]
  constructor
  · rintro ⟨record, ⟨member, sameRun, done⟩, sameChunk⟩
    exact ⟨record, member, ⟨sameRun, sameChunk⟩, done⟩
  · rintro ⟨record, member, ⟨sameRun, sameChunk⟩, done⟩
    exact ⟨record, ⟨member, sameRun, done⟩, sameChunk⟩

@[simp] theorem sameKey_merged (old new : ChunkRecord) (runId key : String) :
    (merged old new).sameKey runId key = old.sameKey runId key := rfl

theorem sameKey_trans {record : ChunkRecord} {runId key otherRun otherKey : String}
    (first : record.sameKey runId key = true) :
    record.sameKey otherRun otherKey = true ↔ runId = otherRun ∧ key = otherKey := by
  simp only [ChunkRecord.sameKey, Bool.and_eq_true, beq_iff_eq] at first ⊢
  rw [first.1, first.2]

/-- An update of the rows of a key decides about this key only. -/
theorem mem_listDone_update {record : ChunkRecord} {stored : List ChunkRecord} {runId key : String}
    (known : stored.any (fun old => old.sameKey record.runId record.chunkKey) = true) :
    key ∈ listDone runId (stored.map (fun old =>
        if old.sameKey record.runId record.chunkKey = true then merged old record else old)) ↔
      if record.runId = runId ∧ record.chunkKey = key then record.status = Status.done
      else key ∈ listDone runId stored := by
  rw [mem_listDone, mem_listDone]
  by_cases own : record.runId = runId ∧ record.chunkKey = key
  · rw [if_pos own, ← own.1, ← own.2]
    constructor
    · rintro ⟨after, member, sameKey, done⟩
      rcases List.mem_map.mp member with ⟨old, _, rfl⟩
      by_cases updated : old.sameKey record.runId record.chunkKey = true
      · rw [if_pos updated] at done
        exact done
      · rw [if_neg updated] at sameKey
        exact absurd sameKey updated
    · intro done
      rcases List.any_eq_true.mp known with ⟨old, member, updated⟩
      exact ⟨merged old record, List.mem_map.mpr ⟨old, member, if_pos updated⟩, updated, done⟩
  · rw [if_neg own]
    constructor
    · rintro ⟨after, member, sameKey, done⟩
      rcases List.mem_map.mp member with ⟨old, oldMember, rfl⟩
      by_cases updated : old.sameKey record.runId record.chunkKey = true
      · rw [if_pos updated, sameKey_merged] at sameKey
        exact absurd ((sameKey_trans updated).mp sameKey) own
      · rw [if_neg updated] at sameKey done
        exact ⟨old, oldMember, sameKey, done⟩
    · rintro ⟨old, member, sameKey, done⟩
      refine ⟨old, List.mem_map.mpr ⟨old, member, if_neg ?_⟩, sameKey, done⟩
      exact fun updated => own ((sameKey_trans updated).mp sameKey)

/-- So does an insert of a key that was not there. -/
theorem mem_listDone_insert {record new : ChunkRecord} {stored : List ChunkRecord} {runId key : String}
    (fresh : new.sameKey runId key = true ↔ record.runId = runId ∧ record.chunkKey = key)
    (status : new.status = record.status)
    (absent : forall old, old ∈ stored -> ¬ old.sameKey record.runId record.chunkKey = true) :
    key ∈ listDone runId (stored ++ [new]) ↔
      if record.runId = runId ∧ record.chunkKey = key then record.status = Status.done
      else key ∈ listDone runId stored := by
  rw [mem_listDone, mem_listDone, ← status]
  simp only [List.mem_append, List.mem_singleton]
  by_cases own : record.runId = runId ∧ record.chunkKey = key
  · rw [if_pos own]
    constructor
    · rintro ⟨after, member | rfl, sameKey, done⟩
      · rw [← own.1, ← own.2] at sameKey
        exact absurd sameKey (absent after member)
      · exact done
    · exact fun done => ⟨new, Or.inr rfl, fresh.mpr own, done⟩
  · rw [if_neg own]
    constructor
    · rintro ⟨after, member | rfl, sameKey, done⟩
      · exact ⟨after, member, sameKey, done⟩
      · exact absurd (fresh.mp sameKey) own
    · rintro ⟨old, member, sameKey, done⟩
      exact ⟨old, Or.inl member, sameKey, done⟩

/-- A put decides about its own chunk and leaves all others as they were. -/
theorem mem_listDone_put {record : ChunkRecord} {stored : List ChunkRecord} {runId key : String} :
    key ∈ listDone runId (put record stored) ↔
      if record.runId = runId ∧ record.chunkKey = key then record.status = Status.done
      else key ∈ listDone runId stored := by
  rw [put]
  by_cases known : stored.any (fun old => old.sameKey record.runId record.chunkKey) = true
  · rw [if_pos known]
    exact mem_listDone_update known
  · rw [if_neg known]
    apply mem_listDone_insert
    · simp [ChunkRecord.sameKey]
    · rfl
    · exact fun old member updated => known (List.any_eq_true.mpr ⟨old, member, updated⟩)

/-! ## Chunks of one table have different keys -/

theorem ofDigitChars_zeroPad (width value : Nat) :
    Nat.ofDigitChars 10 (zeroPad width value).toList 0 = value := by
  simp [zeroPad, Nat.ofDigitChars_append, Nat.ofDigitChars_replicate_zero,
    Nat.ofDigitChars_ten_toDigits]

theorem zeroPad_injective {width first second : Nat} (same : zeroPad width first = zeroPad width second) :
    first = second := by
  rw [← ofDigitChars_zeroPad width first, same, ofDigitChars_zeroPad]

theorem chunkKey_injective {tableFqn : String} {first second : Nat}
    (same : chunkKey tableFqn first = chunkKey tableFqn second) : first = second := by
  have texts := congrArg String.toList same
  simp only [chunkKey, String.toList_append] at texts
  exact zeroPad_injective (String.toList_injective (List.append_cancel_left texts))

theorem isDigit_of_mem_zeroPad {width value : Nat} {char : Char}
    (member : char ∈ (zeroPad width value).toList) : char.isDigit = true := by
  simp only [zeroPad, String.toList_ofList, List.mem_append, List.mem_replicate] at member
  rcases member with ⟨_, rfl⟩ | digit
  · rfl
  · exact Nat.isDigit_of_mem_toDigits (by decide) (by decide) digit

theorem hash_notMem_zeroPad (width value : Nat) : '#' ∉ (zeroPad width value).toList := by
  intro member
  exact absurd (isDigit_of_mem_zeroPad member) (by decide)

theorem toList_chunkKey (tableFqn : String) (chunkId : Nat) :
    (chunkKey tableFqn chunkId).toList =
      JoinedNames.joined ['#'] (tableFqn.toList, (zeroPad 6 chunkId).toList) := by
  simp [chunkKey, JoinedNames.joined]

/-- The digits contain no `#`, so a key tells the name of the table. -/
theorem chunkKey_eq_iff {first second : String} {left right : Nat} :
    chunkKey first left = chunkKey second right ↔ first = second ∧ left = right := by
  constructor
  · intro same
    have texts := congrArg String.toList same
    rw [toList_chunkKey, toList_chunkKey] at texts
    rcases JoinedNames.joined_injective texts (hash_notMem_zeroPad 6 left) (hash_notMem_zeroPad 6 right)
      with ⟨sameName, sameNumber⟩
    exact ⟨String.toList_injective sameName, zeroPad_injective (String.toList_injective sameNumber)⟩
  · rintro ⟨rfl, rfl⟩
    rfl

end Chunks
end WarehouseSync

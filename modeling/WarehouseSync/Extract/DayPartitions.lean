import WarehouseSync.Extract.CopyLoop

namespace WarehouseSync
namespace DayPartitions

open Chunker CopyLoop CopyWorker

/-!
# Every file of a bootstrap lies in one day

The planner groups a table by a cast to a date, the worker compares the column
with two casts of a day, and the lake takes the day of a stored timestamp by
dividing its microseconds.  The casts are those of PostgreSQL, where some of
them depend on the time zone of the session; the ones that are used do not, as
long as the column is read as what it is.
-/

universe u

variable {ρ : Type u}

/-- What the clocks of a time zone show at an instant, and the instant that a time
of theirs stands for.  The two need not be inverse to each other: a clock that is
set back shows some times twice, and one that is set forward leaves some out. -/
structure TimeZone where
  wallAt : Int -> Int
  instantAt : Int -> Int

def utc : TimeZone :=
  { wallAt := fun instant => instant, instantAt := fun wall => wall }

/-- A date in days, a time of the wall clock or an instant, in microseconds, all
from 1970 on.  PostgreSQL converts between the three with the time zone of the
session, which is what could make planner and worker disagree. -/
inductive Moment where
  | date (day : Int)
  | timestamp (wall : Int)
  | timestamptz (instant : Int)
deriving DecidableEq, Repr

section Session

variable (session : TimeZone)

/-- `moment::date`. -/
def toDate : Moment -> Int
  | .date day => day
  | .timestamp wall => wall / microsPerDay
  | .timestamptz instant => session.wallAt instant / microsPerDay

/-- `moment::timestamp`. -/
def toTimestamp : Moment -> Moment
  | .date day => .timestamp (day * microsPerDay)
  | .timestamp wall => .timestamp wall
  | .timestamptz instant => .timestamp (session.wallAt instant)

/-- The instant of a moment, which for a wall clock is one of the session. -/
def toInstant : Moment -> Int
  | .date day => session.instantAt (day * microsPerDay)
  | .timestamp wall => session.instantAt wall
  | .timestamptz instant => instant

/-- `moment AT TIME ZONE zone`. -/
def atTimeZone (zone : TimeZone) : Moment -> Moment
  | .timestamp wall => .timestamptz (zone.instantAt wall)
  | moment => .timestamp (zone.wallAt (toInstant session moment))

/-- The two numbers that a comparison of the moments compares: their instants as
soon as one is an instant, otherwise their wall clocks.  Which operator PostgreSQL
picks depends on the types alone. -/
def compared : Moment -> Moment -> Int × Int
  | .timestamptz instant, other => (instant, toInstant session other)
  | other, .timestamptz instant => (toInstant session other, instant)
  | .date first, .date second => (first, second)
  | .date day, .timestamp wall => (day * microsPerDay, wall)
  | .timestamp wall, .date day => (wall, day * microsPerDay)
  | .timestamp first, .timestamp second => (first, second)

def atLeast (moment bound : Moment) : Bool :=
  decide ((compared session bound moment).1 ≤ (compared session bound moment).2)

def below (moment bound : Moment) : Bool :=
  decide ((compared session moment bound).1 < (compared session moment bound).2)

end Session

/-- The rows of a table: their ids, which columns are timestamps with time zone, and
the microseconds of their columns.  Whether a column is zoned belongs to the table,
so that all values of a column are of one kind. -/
structure Content (ρ : Type u) where
  id : ρ -> Option Int
  zoned : String -> Bool
  micros : String -> ρ -> Option Int

/-- The value of a column of a row, NULL included. -/
def Content.value (content : Content ρ) (name : String) (row : ρ) : Option Moment :=
  (content.micros name row).map (fun micros =>
    if content.zoned name = true then .timestamptz micros else .timestamp micros)

/-- What plans and chunk predicates look at, without a session. -/
def Content.columns (content : Content ρ) : SourceColumns ρ :=
  { id := content.id, timestamp := fun name _ row => content.micros name row }

/-- `_day_expr`. -/
def dayExpr (session : TimeZone) (partTz : Bool) (value : Option Moment) : Option Int :=
  value.map (fun moment =>
    if partTz = true then toDate session (atTimeZone session utc moment) else toDate session moment)

/-- The columns as the planner sees them in its session: only the days of the `GROUP
BY` and the ids.  A day stands for its first microsecond here, which has the same
day. -/
def Content.planned (content : Content ρ) (session : TimeZone) : SourceColumns ρ :=
  { id := content.id
    timestamp := fun name partTz row =>
      (dayExpr session partTz (content.value name row)).map (fun day => day * microsPerDay) }

/-- The literal `lo_lit` of a day, and `hi_lit` of the day before it.  For a zoned
column it is midnight in UTC, whatever the session is. -/
def midnight (session : TimeZone) (partTz : Bool) (day : Int) : Moment :=
  if partTz = true then atTimeZone session utc (toTimestamp session (.date day))
  else toTimestamp session (.date day)

/-- The predicate on the partition column, as it is evaluated in the session of the
worker.  It is not the session of the planner, and the two may have different time
zones. -/
def dayPredicate (session : TimeZone) (content : Content ρ) (chunk : Chunk) (row : ρ) : Bool :=
  match chunk.partCol with
  | none => true
  | some partCol =>
      if chunk.dayIsNull = true then (content.value partCol row).isNone
      else
        match chunk.day with
        | none => true
        | some day => (content.value partCol row).any (fun moment =>
            atLeast session moment (midnight session chunk.partTz day) &&
              below session moment (midnight session chunk.partTz (day + 1)))

/-- The `WHERE` clause of the COPY statement. -/
def whereClause (session : TimeZone) (content : Content ρ) (chunk : Chunk) (row : ρ) : Bool :=
  dayPredicate session content chunk row &&
    ((chunk.lo.all (fun lo => (content.id row).any (fun id => decide (lo ≤ id)))) &&
      (chunk.hi.all (fun hi => (content.id row).any (fun id => decide (id < hi)))))

/-- Iceberg's day transform of a stored value.  It counts days of UTC for instants,
and knows of no session. -/
def icebergDay : Moment -> Int
  | .date day => day
  | .timestamp wall => wall / microsPerDay
  | .timestamptz instant => instant / microsPerDay

/-- The partition of a row; a missing value is in the partition of NULL. -/
def partitionOf (content : Content ρ) (partCol : String) (row : ρ) : Option Int :=
  (content.value partCol row).map icebergDay

/-- What is to hold of a chunk: its day is NULL if it is the null chunk, and it
selects only rows of its day, whose partition is that of its files.  `add_files`
refuses a file with rows of two partitions. -/
structure InOneDay (worker : TimeZone) (content : Content ρ) (partCol : String) (chunk : Chunk) : Prop where
  null : chunk.dayIsNull = true ↔ chunk.day = none
  selected : forall row, whereClause worker content chunk row = true ->
    partitionOf content partCol row = chunk.day
  files : forall (settings : Settings) (bucket rawPrefix s3Prefix : String) (rows : List ρ) (file : DataFile ρ),
    file ∈ (copyStream settings bucket rawPrefix s3Prefix chunk
        (rows.filter (whereClause worker content chunk))).files ->
      forall row, row ∈ file.rows -> partitionOf content partCol row = chunk.day

/-! ## The session does not matter -/

theorem dayExpr_value (session : TimeZone) (content : Content ρ) (name : String) (row : ρ) :
    dayExpr session (content.zoned name) (content.value name row) = partitionOf content name row := by
  rw [dayExpr, partitionOf, Content.value]
  cases content.micros name row with
  | none => rfl
  | some micros =>
      cases content.zoned name with
      | false => rfl
      | true => rfl

theorem dayOf_columns (content : Content ρ) (name : String) (partTz : Bool) (row : ρ) :
    content.columns.dayOf name partTz row = partitionOf content name row := by
  rw [SourceColumns.dayOf, partitionOf, Content.value, Option.map_map]
  apply congrArg (fun f => Option.map f (content.micros name row))
  funext micros
  rw [Function.comp_apply]
  split
  · rfl
  · rfl

theorem dayOf_planned (content : Content ρ) (session : TimeZone) (name : String) (row : ρ) :
    (content.planned session).dayOf name (content.zoned name) row = partitionOf content name row := by
  have positive : microsPerDay ≠ 0 := by decide
  rw [← dayExpr_value session]
  simp only [SourceColumns.dayOf, Content.planned]
  cases dayExpr session (content.zoned name) (content.value name row) with
  | none => rfl
  | some day => exact congrArg some (Int.mul_ediv_cancel day positive)

/-- A plan looks at the days and the ids only. -/
theorem planPartitionedChunks_congr {first second : SourceColumns ρ} {partCol : String} {partTz : Bool}
    (ids : first.id = second.id)
    (days : forall row, first.dayOf partCol partTz row = second.dayOf partCol partTz row)
    (schema table : String) (numericId : Bool) (target : Int) (rows : List ρ) :
    planPartitionedChunks first schema table partCol partTz numericId target rows =
      planPartitionedChunks second schema table partCol partTz numericId target rows := by
  have sameDays : first.dayOf partCol partTz = second.dayOf partCol partTz := funext days
  have groups : groupChunks first schema table partCol partTz numericId target rows =
      groupChunks second schema table partCol partTz numericId target rows := by
    funext day
    simp only [groupChunks, idBounds, ids, sameDays]
  simp only [planPartitionedChunks, dayGroups, groups, sameDays]

/-- The plan is the same in every session. -/
theorem plan_planned (content : Content ρ) (session : TimeZone) (schema table partCol : String)
    (numericId : Bool) (target : Int) (rows : List ρ) :
    planPartitionedChunks (content.planned session) schema table partCol (content.zoned partCol) numericId
        target rows =
      planPartitionedChunks content.columns schema table partCol (content.zoned partCol) numericId target
        rows := by
  have ids : (content.planned session).id = content.columns.id := rfl
  apply planPartitionedChunks_congr ids
  intro row
  rw [dayOf_planned, dayOf_columns]

/-- The literals compare with the column by its microseconds. -/
theorem between_midnights (session : TimeZone) (zoned : Bool) (micros day : Int) :
    (atLeast session (if zoned = true then .timestamptz micros else .timestamp micros)
        (midnight session zoned day) &&
      below session (if zoned = true then .timestamptz micros else .timestamp micros)
        (midnight session zoned (day + 1))) =
      (decide (day * microsPerDay ≤ micros) && decide (micros < (day + 1) * microsPerDay)) := by
  cases zoned with
  | false => rfl
  | true => rfl

theorem any_eq_satisfies (value : Option Int) (test : Int -> Bool) : value.any test = satisfies value test := by
  cases value with
  | none => rfl
  | some number => rfl

/-- The predicate of a chunk that reads its column as what it is. -/
theorem whereClause_eq {session : TimeZone} {content : Content ρ} {chunk : Chunk}
    (typed : forall partCol, chunk.partCol = some partCol -> chunk.partTz = content.zoned partCol)
    (row : ρ) : whereClause session content chunk row = chunk.selects content.columns row := by
  have day : dayPredicate session content chunk row = chunk.selectsDay content.columns row := by
    unfold dayPredicate Chunk.selectsDay
    cases onColumn : chunk.partCol with
    | none => rfl
    | some partCol =>
        simp only [typed partCol onColumn, Content.columns, Content.value]
        cases chunk.day with
        | none =>
            cases content.micros partCol row with
            | none => rfl
            | some micros => rfl
        | some day =>
            cases content.micros partCol row with
            | none => rfl
            | some micros =>
                simp only [Option.map_some, Option.isNone_some, Option.any_some, between_midnights, satisfies]
  rw [whereClause, Chunk.selects, day]
  simp only [any_eq_satisfies, Content.columns]

/-- A chunk of a column, whose predicate is that of its day.  All chunks of a plan
are of this form, those with a range of ids as well. -/
structure OfDay (partCol : String) (partTz : Bool) (chunk : Chunk) : Prop where
  column : chunk.partCol = some partCol
  zone : chunk.partTz = partTz
  null : chunk.dayIsNull = chunk.day.isNone

theorem ofDay_dayChunk (schema table partCol : String) (partTz : Bool) (day : Option Int) :
    OfDay partCol partTz (dayChunk schema table partCol partTz day) :=
  { column := rfl, zone := rfl, null := rfl }

theorem ofDay_groupChunks {columns : SourceColumns ρ} {schema table partCol : String}
    {partTz numericId : Bool} {target : Int} {rows : List ρ} {day : Option Int} {chunks : List Chunk}
    (planned : groupChunks columns schema table partCol partTz numericId target rows day = some chunks) :
    forall chunk, chunk ∈ chunks -> OfDay partCol partTz chunk := by
  intro chunk member
  have whole := ofDay_dayChunk schema table partCol partTz day
  rcases groupChunks_cases planned with ⟨_, rfl⟩ | ⟨_, _, _, rfl⟩ | ⟨_, _, lo, hi, count, _, rfl⟩
  · rw [List.mem_singleton.mp member]
    exact whole
  · cases member
  · rcases List.mem_map.mp member with ⟨range, _, rfl⟩
    exact { column := whole.column, zone := whole.zone, null := whole.null }

theorem ofDay_plan {columns : SourceColumns ρ} {schema table partCol : String} {partTz numericId : Bool}
    {target : Int} {rows : List ρ} {chunks : List Chunk}
    (planned : planPartitionedChunks columns schema table partCol partTz numericId target rows = some chunks) :
    forall chunk, chunk ∈ chunks -> OfDay partCol partTz chunk := by
  rcases Option.bind_eq_some_iff.mp planned with ⟨groups, grouped, ⟨⟩⟩
  intro chunk member
  rcases exists_of_mem_numbered member with ⟨original, listed, index, rfl⟩
  rcases List.mem_flatten.mp listed with ⟨group, present, here⟩
  rcases exists_of_mem_mapM grouped present with ⟨day, made⟩
  have own := ofDay_groupChunks made original here
  exact { column := own.column, zone := own.zone, null := own.null }

theorem partitionOf_selected {worker : TimeZone} {content : Content ρ} {partCol : String} {chunk : Chunk}
    (own : OfDay partCol (content.zoned partCol) chunk) {row : ρ}
    (selected : whereClause worker content chunk row = true) : partitionOf content partCol row = chunk.day := by
  have typed : forall name, chunk.partCol = some name -> chunk.partTz = content.zoned name := by
    intro name same
    rw [Option.some.inj (same.symm.trans own.column), own.zone]
  rw [whereClause_eq typed] at selected
  have inDay : chunk.selectsDay content.columns row = true := (Bool.and_eq_true_iff.mp selected).1
  rw [← dayOf_columns content partCol chunk.partTz row]
  exact (selectsDay_iff own.column own.null).mp inDay

/-- Whatever the sessions of the planner and the worker, and whatever rows the
worker sees, each chunk of a plan selects the rows of one day, and so does each
of its files. -/
theorem files_in_one_day (planner worker : TimeZone) (content : Content ρ) (schema table partCol : String)
    (numericId : Bool) (target : Int) (rows : List ρ) (chunks : List Chunk)
    (planned : planPartitionedChunks (content.planned planner) schema table partCol (content.zoned partCol)
      numericId target rows = some chunks)
    (chunk : Chunk) (member : chunk ∈ chunks) : InOneDay worker content partCol chunk := by
  have own := ofDay_plan planned chunk member
  exact {
    null := by rw [own.null, Option.isNone_iff_eq_none]
    selected := fun row selected => partitionOf_selected own selected
    files := by
      intro settings bucket rawPrefix s3Prefix seen file listed row inFile
      have present : row ∈ fileRows (copyStream settings bucket rawPrefix s3Prefix chunk
          (seen.filter (whereClause worker content chunk))).files :=
        List.mem_flatMap.mpr ⟨file, listed, inFile⟩
      rw [fileRows_copyStream] at present
      exact partitionOf_selected own (List.mem_filter.mp present).2 }

/-- Rows that are an id and a time of creation with a time zone. -/
def eventContent : Content (Int × Option Int) :=
  { id := fun row => some row.1, zoned := fun _ => true, micros := fun _ row => row.2 }

/-- A session two hours ahead of UTC. -/
def ahead : TimeZone :=
  { wallAt := fun instant => instant + 7200000000, instantAt := fun wall => wall - 7200000000 }

/-- The chunk of the last day before 1970. -/
def lastDayBefore : Chunk :=
  { dayChunk "public" "events" "created_at" true (some (-1)) with lo := some 1, hi := some 2 }

/-- One microsecond before 1970 and its first microsecond are in different
chunks, although the session of the planner has them in one day. -/
theorem events_in_one_day : InOneDay ahead eventContent "created_at" lastDayBefore :=
  files_in_one_day ahead ahead eventContent "public" "events" "created_at" true 250000
    [(1, some (-1)), (2, some 0), (3, none)]
    [lastDayBefore,
      { dayChunk "public" "events" "created_at" true (some 0) with chunkId := 1, lo := some 2, hi := some 3 },
      { dayChunk "public" "events" "created_at" true none with chunkId := 2 }]
    rfl lastDayBefore List.mem_cons_self

end DayPartitions
end WarehouseSync

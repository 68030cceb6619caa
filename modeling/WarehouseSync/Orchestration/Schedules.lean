import WarehouseSync.Gateway.DsnParts
import WarehouseSync.Library.IsoFormat
import WarehouseSync.Library.JoinedNames
import WarehouseSync.Library.KeyedRows
import WarehouseSync.Orchestration.NewTables

namespace WarehouseSync
namespace Schedules

open ConfigStore IsoFormat JoinedNames KeyedRows Tables
open NewTables (RunRequest Target targetsOf)

/-!
# Runs that are due (`orchestration/incremental_job.py`, `orchestration/reconcile_job.py`)

An evaluation of a schedule requests one run for each eligible object of each
enabled connection.  Dagster goes through the requests one by one and skips
those whose run key has a run of the schedule already.  It evaluates the same
tick again when it was stopped on the way.  A run is told the schema and the name
of its object as one text with a dot between them, and the run key has that text
too: objects whose texts are the same share a run.
-/

/-- A schedule that requests one run for every object of its kind.  The two of the
code differ in how a run key starts, in a tag and in which objects are eligible. -/
structure Schedule where
  keyStart : String
  kind : String
  eligible : TableConfig -> Bool

def everyFiveMinutesPerTable : Schedule :=
  { keyStart := "", kind := "incremental", eligible := TableConfig.supportsIncremental }

def dailyReconcile : Schedule :=
  { keyStart := "reconcile:", kind := "reconcile", eligible := fun cfg => cfg.supportsParallelChunking }

/-- An evaluation for the time of a tick: the connections with what `get_tables`
finds for each, and how many requests Dagster came to. -/
structure Evaluation where
  time : AwareDateTime
  connections : List (Connection × Option (List TableConfig))
  reached : Nat
deriving DecidableEq

section Schedule

variable (schedule : Schedule)

/-- The run key of an object at a tick.  Dagster starts at most one run for it, so
the time in it is what makes the next tick a new one. -/
def runKey (connectionId : Int) (fqn : String) (time : AwareDateTime) : String :=
  schedule.keyStart ++ toString connectionId ++ ":" ++ fqn ++ "@" ++ String.ofList time.isoformat

def runRequest (time : AwareDateTime) (target : Target) : RunRequest :=
  { runKey := runKey schedule target.conn.id target.cfg.fqn time
    connectionId := target.conn.id
    tableFqn := target.cfg.fqn
    tags := [("connection", toString target.conn.id), ("table", target.cfg.fqn), ("kind", schedule.kind)] }

/-- The objects a run is requested for; nothing is requested when one connection
cannot be listed. -/
def due (evaluation : Evaluation) : List Target :=
  match targetsOf (evaluation.connections.filter (fun entry => entry.1.enabled)) with
  | none => []
  | some targets => targets.filter (fun target => schedule.eligible target.cfg)

/-- A run, with the time of the tick it was requested for. -/
structure Run where
  time : AwareDateTime
  request : RunRequest
deriving DecidableEq

/-- The run keys of the schedule. -/
def Run.key (entry : Run) : Option String :=
  some entry.request.runKey

/-- What a run is for: a connection, the text of an object and a tick.  The run itself
does not know where the schema ends in that text. -/
def Run.purpose (entry : Run) : Option (Int × String × AwareDateTime) :=
  some (entry.request.connectionId, entry.request.tableFqn, entry.time)

/-- The runs that an evaluation asks for, with the time of the tick, which the
request itself has only inside its key. -/
def requests (evaluation : Evaluation) : List Run :=
  (due schedule evaluation).map (fun target =>
    { time := evaluation.time, request := runRequest schedule evaluation.time target })

/-- One evaluation of the schedule: every request that Dagster comes to starts a
run, unless there is one with its key already. -/
def evaluate (runs : List Run) (evaluation : Evaluation) : List Run :=
  ((requests schedule evaluation).take evaluation.reached).foldl (insertNew Run.key) runs

/-- The runs after some evaluations. -/
def runsAfter (evaluations : List Evaluation) : List Run :=
  evaluations.foldl (evaluate schedule) []

/-- The requests that Dagster came to. -/
def handled (evaluations : List Evaluation) : List Run :=
  evaluations.flatMap (fun evaluation => (requests schedule evaluation).take evaluation.reached)

end Schedule

variable {schedule : Schedule}

theorem at_notMem_isoformat (time : AwareDateTime) : '@' ∉ time.isoformat := by
  intro member
  rcases AwareDateTime.isoformat_char member with digit | separator
  · exact absurd digit (by decide)
  · exact absurd separator (by decide)

theorem colon_notMem_toString (value : Int) : ':' ∉ (toString value).toList :=
  fun member => DsnParts.ne_of_port_char member (by decide) rfl

/-- A run key tells what the run is for, whatever is in the text of the object: an
identifier has no colon, and what comes after the last `@` is the time. -/
theorem runKey_injective {connectionId otherId : Int} {fqn otherFqn : String} {time otherTime : AwareDateTime}
    (same : runKey schedule connectionId fqn time = runKey schedule otherId otherFqn otherTime) :
    connectionId = otherId ∧ fqn = otherFqn ∧ time = otherTime := by
  have texts : joined ['@'] (schedule.keyStart.toList ++ joined [':'] ((toString connectionId).toList, fqn.toList),
      time.isoformat) = joined ['@'] (schedule.keyStart.toList ++ joined [':'] ((toString otherId).toList,
      otherFqn.toList), otherTime.isoformat) := by
    simpa [runKey, joined] using congrArg String.toList same
  have outer := joined_injective texts (at_notMem_isoformat time) (at_notMem_isoformat otherTime)
  have inner := joined_injective_first (List.append_cancel_left outer.1) (colon_notMem_toString connectionId)
    (colon_notMem_toString otherId)
  have ids : connectionId = otherId := by
    have read := congrArg DecimalText.readInt inner.1
    rw [DsnParts.toList_toString, DsnParts.toList_toString, DecimalText.readInt_intText,
      DecimalText.readInt_intText] at read
    exact Option.some.inj read
  exact ⟨ids, String.toList_injective inner.2, AwareDateTime.isoformat_injective outer.2⟩

/-- The text of an object is one name only, when no name after a schema has a dot. -/
theorem names_of_fqn {cfg other : TableConfig} (same : cfg.fqn = other.fqn) (plain : '.' ∉ cfg.table.toList)
    (otherPlain : '.' ∉ other.table.toList) : cfg.schema = other.schema ∧ cfg.table = other.table := by
  have texts : joined ['.'] (cfg.schema.toList, cfg.table.toList) =
      joined ['.'] (other.schema.toList, other.table.toList) := by
    simpa [TableConfig.fqn, joined] using congrArg String.toList same
  have parts := joined_injective texts plain otherPlain
  exact ⟨String.toList_injective parts.1, String.toList_injective parts.2⟩

/-! ## Which runs there are -/

theorem runsAfter_eq (evaluations : List Evaluation) :
    runsAfter schedule evaluations = (handled schedule evaluations).foldl (insertNew Run.key) [] := by
  unfold runsAfter handled
  rw [List.foldl_flatMap]
  rfl

theorem rowsAt_key_runsAfter (evaluations : List Evaluation) (key : Option String) :
    rowsAt Run.key key (runsAfter schedule evaluations) =
      (rowsAt Run.key key (handled schedule evaluations)).take 1 := by
  rw [runsAfter_eq]
  exact rowsAt_foldl_insertNew _ (Nat.zero_le 1)

theorem handled_of_mem {evaluations : List Evaluation} {entry : Run}
    (member : entry ∈ runsAfter schedule evaluations) :
    entry ∈ handled schedule evaluations := by
  have own : entry ∈ rowsAt Run.key entry.key (runsAfter schedule evaluations) := mem_rowsAt.mpr ⟨member, rfl⟩
  rw [rowsAt_key_runsAfter] at own
  exact (mem_rowsAt.mp (List.mem_of_mem_take own)).1

/-- Every request is one for an object that is due. -/
theorem due_of_handled {evaluations : List Evaluation} {entry : Run} (member : entry ∈ handled schedule evaluations) :
    Exists fun evaluation : Evaluation => Exists fun target : Target => evaluation ∈ evaluations ∧
      target ∈ due schedule evaluation ∧
      entry = { time := evaluation.time, request := runRequest schedule evaluation.time target } := by
  rcases List.mem_flatMap.mp member with ⟨evaluation, listed, taken⟩
  rcases List.mem_map.mp (List.mem_of_mem_take taken) with ⟨target, isDue, same⟩
  exact ⟨evaluation, target, listed, isDue, same.symm⟩

/-- Requests for the same object and tick are those with the same run key. -/
theorem rowsAt_purpose_eq {entries : List Run} {evaluations : List Evaluation}
    (part : forall entry, entry ∈ entries -> entry ∈ handled schedule evaluations)
    (connectionId : Int) (fqn : String) (time : AwareDateTime) :
    rowsAt Run.purpose (some (connectionId, fqn, time)) entries =
      rowsAt Run.key (some (runKey schedule connectionId fqn time)) entries := by
  refine List.filter_congr (fun entry member => ?_)
  rcases due_of_handled (part entry member) with ⟨evaluation, target, _, _, rfl⟩
  rw [decide_eq_decide]
  constructor
  · intro same
    cases same
    rfl
  · intro same
    rcases runKey_injective (Option.some.inj same) with ⟨rfl, rfl, rfl⟩
    rfl

/-- For each object and tick the first request that Dagster came to has its run. -/
theorem rowsAt_runsAfter (evaluations : List Evaluation) (connectionId : Int) (fqn : String) (time : AwareDateTime) :
    rowsAt Run.purpose (some (connectionId, fqn, time)) (runsAfter schedule evaluations) =
      (rowsAt Run.purpose (some (connectionId, fqn, time)) (handled schedule evaluations)).take 1 := by
  rw [rowsAt_purpose_eq (fun _ => handled_of_mem), rowsAt_purpose_eq (fun _ member => member), rowsAt_key_runsAfter]

/-- However often ticks are evaluated, every run is for an object that was due at
its tick, no text of an object has two runs of a tick on one connection, and after
an evaluation that Dagster went through to its end the text of each object that is
due has one.  Run keys differ for different connections, ticks and texts, and so
for different objects whose names have no dots. -/
theorem one_run_per_tick (schedule : Schedule) (evaluations : List Evaluation) :
    (forall entry, entry ∈ runsAfter schedule evaluations ->
      Exists fun evaluation : Evaluation => Exists fun target : Target => evaluation ∈ evaluations ∧
        target ∈ due schedule evaluation ∧
        entry = { time := evaluation.time, request := runRequest schedule evaluation.time target }) ∧
    UniqueKeys Run.purpose (runsAfter schedule evaluations) ∧
    (forall evaluation, evaluation ∈ evaluations -> (due schedule evaluation).length ≤ evaluation.reached ->
      forall target, target ∈ due schedule evaluation ->
        (rowsAt Run.purpose (some (target.conn.id, target.cfg.fqn, evaluation.time))
          (runsAfter schedule evaluations)).length = 1) ∧
    (forall target other : Target, forall time otherTime : AwareDateTime,
      (runRequest schedule time target).runKey = (runRequest schedule otherTime other).runKey ->
        target.conn.id = other.conn.id ∧ target.cfg.fqn = other.cfg.fqn ∧ time = otherTime ∧
        ('.' ∉ target.cfg.table.toList -> '.' ∉ other.cfg.table.toList ->
          target.cfg.schema = other.cfg.schema ∧ target.cfg.table = other.cfg.table)) := by
  refine ⟨fun entry member => due_of_handled (handled_of_mem member), ?_, ?_, ?_⟩
  · refine uniqueKeys_iff.mpr (fun purpose => ?_)
    rw [rowsAt_runsAfter]
    exact List.length_take_le 1 _
  · intro evaluation listed complete target isDue
    have whole : (requests schedule evaluation).take evaluation.reached = requests schedule evaluation := by
      apply List.take_of_length_le
      rw [requests, List.length_map]
      exact complete
    have asked : { time := evaluation.time, request := runRequest schedule evaluation.time target } ∈
        handled schedule evaluations := by
      refine List.mem_flatMap.mpr ⟨evaluation, listed, ?_⟩
      rw [whole]
      exact List.mem_map.mpr ⟨target, isDue, rfl⟩
    rw [rowsAt_runsAfter, List.length_take, Nat.min_eq_left]
    exact List.length_pos_iff.mpr (List.ne_nil_of_mem (mem_rowsAt.mpr ⟨asked, rfl⟩))
  · intro target other time otherTime same
    rcases runKey_injective same with ⟨sameConnection, sameText, sameTime⟩
    exact ⟨sameConnection, sameText, sameTime, names_of_fqn sameText⟩

def warehouse : Connection :=
  { id := 1, name := "sales", enabled := true, sourceDsn := "", awsAccessKey := none, awsSecretKey := none
    awsRegion := "eu-west-1", lakeBucket := "lake", icebergNamespace := "sales", syncInclude := "", syncExclude := ""
    syncObjectTypes := "TABLE", syncSchemaBlacklist := "" }

def orders : TableConfig :=
  { schema := "public", table := "orders", partitionBy := [], watermarkColumn := some "updated_at", pk := "id"
    supportsParallelChunking := true }

def sixOClock : AwareDateTime :=
  { wall := { date := { year := 2024, month := 5, day := 1, inRange := by decide }
              clock := { hour := 6, minute := 0, second := 0, microsecond := 0 }, inRange := by decide }
    offset := utc }

/-- Two evaluations of a tick: the first is stopped before its second request. -/
def twice : List Evaluation :=
  [{ time := sixOClock, connections := [(warehouse, some [orders, { orders with table := "items" }])], reached := 1 },
    { time := sixOClock, connections := [(warehouse, some [orders, { orders with table := "items" }])],
      reached := 2 }]

example : (runsAfter dailyReconcile twice).map (fun entry => entry.request.tableFqn) =
    ["public.orders", "public.items"] := by decide

/-- Two objects whose texts are the same. -/
def sameTexts : List TableConfig :=
  [{ orders with schema := "sales.eu" }, { orders with schema := "sales", table := "eu.orders" }]

/-- They share a run. -/
example : (runsAfter dailyReconcile
      [{ time := sixOClock, connections := [(warehouse, some sameTexts)], reached := 2 }]).map
        (fun entry => entry.request.tableFqn) = ["sales.eu.orders"] := by decide

example : (runsAfter everyFiveMinutesPerTable twice).map (fun entry => entry.request.runKey) =
    ["1:public.orders@2024-05-01T06:00:00+00:00", "1:public.items@2024-05-01T06:00:00+00:00"] := by decide

end Schedules
end WarehouseSync

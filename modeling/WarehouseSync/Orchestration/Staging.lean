import WarehouseSync.Extract.RunIncremental
import WarehouseSync.Gateway.ConfigStore
import WarehouseSync.Library.JoinedNames
import WarehouseSync.Library.Transition
import WarehouseSync.Orchestration.Tables

namespace WarehouseSync
namespace Staging

open ConfigStore Tables Transition Watermarks
open Incremental hiding Extraction runIncremental
open RunIncremental hiding nullsLast

/-!
# Incremental runs side by side

A run reads its watermark, extracts a window, uploads it as one staging object,
merges what it then finds in that object, and advances the watermark.  The key of
the object is made from the bucket, the name of the table and the second in which
the run began; the keys of a bootstrap have the id of the run in them as well.

Runs may begin at any time and overlap in any way.  A run that skips its table or
raises takes no further step, and a retry is a run of its own.
-/

universe u

variable {ρ : Type u}

/-- What a run works on.  The clock counts microseconds, and only its seconds get
into the name of the staging object. -/
structure Job (ρ : Type u) where
  conn : Connection
  cfg : TableConfig
  columns : NullableColumns ρ
  kind : WatermarkKind
  settings : IncrementalSettings
  now : Int

/-- `raw_prefix`. -/
def rawPrefix : String := "raw"

/-- `int(now.timestamp())`. -/
def second (now : Int) : Int :=
  now.tdiv microsPerSecond

/-- The key of the staging object.  It has the text of the object and a second in
it, but neither the connection nor anything that is unique to the run. -/
def objectKey (fqn : String) (now : Int) : String :=
  rawPrefix ++ "/" ++ ("incremental/" ++ fqn) ++ "/window_" ++
    String.ofList (DecimalText.intText (second now)) ++ ".parquet"

def Job.location (job : Job ρ) : String × String :=
  (job.conn.lakeBucket, objectKey job.cfg.fqn job.now)

/-- The lake table of the run. -/
def Job.table (job : Job ρ) : String × String :=
  (job.conn.icebergNamespace, job.cfg.icebergTableName)

def Job.watermarkKey (job : Job ρ) : Int × String :=
  (job.conn.id, job.cfg.fqn)

/-- How far a run has come.  What it has extracted is kept beside what its merge has
found, because these are the two that are to be compared. -/
inductive Stage (ρ : Type u) where
  | begun
  | read (wm : Mark)
  | extracted (extraction : Extraction ρ)
  | uploaded (extraction : Extraction ρ)
  | merged (extraction : Extraction ρ) (found : List ρ)
  | advanced (extraction : Extraction ρ) (found : List ρ)

/-- A run that has failed stays where it is. -/
structure Run (ρ : Type u) where
  job : Job ρ
  stage : Stage ρ
  failed : Bool

/-- The staging objects, the watermarks, and the rows that were merged into each
lake table, merge by merge.  The lake tables themselves are left out: what matters
here is which rows a merge was given. -/
structure World (ρ : Type u) where
  objects : String × String -> Option (List ρ)
  watermarks : Int × String -> Option Mark
  merges : List ((String × String) × List ρ)
  runs : List (Run ρ)

inductive RunEvent (ρ : Type u) where
  | readWatermark
  /-- The window is taken from the rows that one transaction sees. -/
  | extract (rows : List ρ)
  | upload
  | merge
  | advance
  | fail

inductive Event (ρ : Type u) where
  | begin (job : Job ρ)
  | run (index : Nat) (event : RunEvent ρ)

/-- `advance_watermark_after_merge`, if there is an id to store.  The stored mark
never goes back, so a slower run does not undo what a faster one has stored. -/
def advance (world : World ρ) (job : Job ρ) (watermark : Reached) : Option (World ρ) :=
  watermark.mark.map (fun mark =>
    let key := job.watermarkKey
    { world with
      watermarks := Function.update world.watermarks key (some (Mark.advance (world.watermarks key) mark)) })

/-- One step of a run.  A window without rows is neither uploaded nor merged.  The
upload overwrites whatever is under the key, and the merge reads whatever is there
by then. -/
def stepRun (world : World ρ) (run : Run ρ) : RunEvent ρ -> Option (World ρ × Run ρ)
  | .readWatermark =>
      match run.stage with
      | .begun =>
          let wm := (world.watermarks run.job.watermarkKey).getD Mark.initial
          some (world, { run with stage := .read wm })
      | _ => none
  | .extract rows =>
      match run.stage with
      | .read wm =>
          (extract run.job.columns run.job.settings run.job.kind run.job.now wm rows).map (fun extraction =>
            (world, { run with stage := .extracted extraction }))
      | _ => none
  | .upload =>
      match run.stage with
      | .extracted extraction => extraction.staged.map (fun rows =>
          ({ world with objects := Function.update world.objects run.job.location (some rows) },
            { run with stage := .uploaded extraction }))
      | _ => none
  | .merge =>
      match run.stage with
      | .uploaded extraction => (world.objects run.job.location).map (fun rows =>
          ({ world with merges := world.merges ++ [(run.job.table, rows)] },
            { run with stage := .merged extraction rows }))
      | _ => none
  | .advance =>
      match run.stage with
      | .merged extraction found => (advance world run.job extraction.watermark).map (fun next =>
          (next, { run with stage := .advanced extraction found }))
      | .extracted extraction =>
          if extraction.staged.isNone = true then
            (advance world run.job extraction.watermark).map (fun next =>
              (next, { run with stage := .advanced extraction [] }))
          else none
      | _ => none
  | .fail => some (world, { run with failed := true })

/-- A run may begin at any time, also for a table that has one already; and the run
that takes the next step may be any that has not failed. -/
def step (world : World ρ) : Event ρ -> Option (World ρ)
  | .begin job => some { world with runs := world.runs ++ [{ job := job, stage := .begun, failed := false }] }
  | .run index event =>
      world.runs[index]?.bind (fun run =>
        if run.failed = true then none
        else (stepRun world run event).map (fun next =>
          { next.1 with runs := next.1.runs.set index next.2 }))

theorem slash_notMem_intText (value : Int) : '/' ∉ DecimalText.intText value := by
  have digits (number : Nat) : '/' ∉ Nat.toDigits 10 number := fun member =>
    absurd (Nat.isDigit_of_mem_toDigits (by decide) (by decide) member) (by decide)
  cases value with
  | ofNat number => exact digits number
  | negSucc number =>
      intro member
      rcases List.mem_cons.mp member with minus | later
      · cases minus
      · exact digits (number + 1) later

theorem intText_injective {first second : Int}
    (same : DecimalText.intText first = DecimalText.intText second) : first = second := by
  have read := congrArg DecimalText.readInt same
  rw [DecimalText.readInt_intText, DecimalText.readInt_intText] at read
  exact Option.some.inj read

/-- The file name of a window. -/
def windowName (now : Int) : List Char :=
  "window_".toList ++ (DecimalText.intText (second now) ++ ".parquet".toList)

theorem slash_notMem_windowName (now : Int) : '/' ∉ windowName now := by
  intro member
  rcases List.mem_append.mp member with front | rest
  · exact absurd front (by decide)
  · rcases List.mem_append.mp rest with number | ending
    · exact slash_notMem_intText _ number
    · exact absurd ending (by decide)

theorem slash_window : "/window_".toList = ['/'] ++ "window_".toList := by
  simp

theorem toList_objectKey (fqn : String) (now : Int) :
    (objectKey fqn now).toList = (rawPrefix ++ "/" ++ "incremental/").toList ++
      JoinedNames.joined ['/'] (fqn.toList, windowName now) := by
  unfold objectKey JoinedNames.joined windowName
  simp only [String.toList_append, String.toList_ofList, slash_window, List.append_assoc]

theorem windowName_injective {now later : Int} (same : windowName now = windowName later) :
    second now = second later := by
  unfold windowName at same
  exact intText_injective (List.append_cancel_right (List.append_cancel_left same))

/-- A key tells the table and the second. -/
theorem objectKey_eq_iff {first other : String} {now later : Int} :
    objectKey first now = objectKey other later ↔ first = other ∧ second now = second later := by
  constructor
  · intro same
    have texts := congrArg String.toList same
    rw [toList_objectKey, toList_objectKey] at texts
    have parts := JoinedNames.joined_injective (List.append_cancel_left texts)
      (slash_notMem_windowName now) (slash_notMem_windowName later)
    exact ⟨String.toList_injective parts.1, windowName_injective parts.2⟩
  · intro same
    rw [objectKey, objectKey, same.1, same.2]

/-- Two runs upload to one object: they share the bucket, the name of the table and
the second in which they began.  They may belong to different connections. -/
def Collide (first other : Job ρ) : Prop :=
  first.conn.lakeBucket = other.conn.lakeBucket ∧ first.cfg.fqn = other.cfg.fqn ∧
    second first.now = second other.now

theorem location_eq_iff {first other : Job ρ} : first.location = other.location ↔ Collide first other := by
  rw [Job.location, Job.location, Prod.mk.injEq, objectKey_eq_iff]
  rfl

/-! ## What a merge reads -/

/-- The merge has read the rows of the run's own window, and they went into the
run's own table.  The record of the merges is part of it, so the rows really got
there. -/
def Own (merges : List ((String × String) × List ρ)) (run : Run ρ) : Prop :=
  match run.stage with
  | .merged extraction found | .advanced extraction found =>
      found = extraction.rows ∧ forall row, row ∈ extraction.rows ->
        Exists fun rows : List ρ => (run.job.table, rows) ∈ merges ∧ row ∈ rows
  | _ => True

/-- Every merge so far has read what its own run extracted.  No run can see that it
is otherwise, since the object it reads is where it expects it. -/
def World.Isolated (world : World ρ) : Prop :=
  forall run, run ∈ world.runs -> Own world.merges run

/-- The run has uploaded its window and is going to merge it. -/
def Run.waits (run : Run ρ) : Bool :=
  match run.stage with
  | .uploaded _ => !run.failed
  | _ => false

/-- No upload hits the object that another run is going to merge.  It is a condition
on the state before an upload; all other steps are free. -/
def Undisturbed (world : World ρ) : Event ρ -> Prop
  | .run index .upload =>
      match world.runs[index]? with
      | none => True
      | some run => forall waiting, waiting ∈ world.runs.eraseIdx index -> waiting.waits = true ->
          ¬ Collide run.job waiting.job
  | _ => True

/-- What the run is going to merge is what it has uploaded.  Until the merge this is
about the staging object, which other runs may write. -/
def Ready (objects : String × String -> Option (List ρ)) (run : Run ρ) : Prop :=
  forall extraction, run.stage = .uploaded extraction -> run.failed = false ->
    objects run.job.location = some extraction.rows

/-- The invariant: windows that wait for their merge are as they were uploaded, and
the merges so far have read their own. -/
structure Good (world : World ρ) : Prop where
  ready : forall run, run ∈ world.runs -> Ready world.objects run
  isolated : world.Isolated

variable {world next : World ρ} {run : Run ρ} {event : RunEvent ρ}

theorem Own.grow {merges : List ((String × String) × List ρ)} (own : Own merges run)
    (more : List ((String × String) × List ρ)) : Own (merges ++ more) run := by
  have grown {extracted : List ρ}
      (stored : forall row, row ∈ extracted ->
        Exists fun rows : List ρ => (run.job.table, rows) ∈ merges ∧ row ∈ rows) :
      forall row, row ∈ extracted -> Exists fun rows : List ρ =>
        (run.job.table, rows) ∈ merges ++ more ∧ row ∈ rows := by
    intro row listed
    rcases stored row listed with ⟨rows, member, inside⟩
    exact ⟨rows, List.mem_append_left more member, inside⟩
  unfold Own at own ⊢
  cases stage : run.stage with
  | merged extraction found =>
      simp only [stage] at own
      exact ⟨own.1, grown own.2⟩
  | advanced extraction found =>
      simp only [stage] at own
      exact ⟨own.1, grown own.2⟩
  | _ => trivial

/-- What a step of a run does to the staging objects and the merges, and where it
leaves the run.  Most steps do nothing to either, and these are one case here. -/
inductive Effect (world : World ρ) (run : Run ρ) : RunEvent ρ -> World ρ -> Run ρ -> Prop where
  | quiet (event : RunEvent ρ) (next : World ρ) (after : Run ρ) (objects : next.objects = world.objects)
      (merges : next.merges = world.merges) (runs : next.runs = world.runs)
      (ready : Ready world.objects run -> Ready world.objects after)
      (own : Own world.merges run -> Own world.merges after) :
      Effect world run event next after
  | upload (extraction : Extraction ρ) (rows : List ρ) (staged : extraction.staged = some rows) :
      Effect world run .upload
        { world with objects := Function.update world.objects run.job.location (some rows) }
        { run with stage := .uploaded extraction }
  | merge (extraction : Extraction ρ) (rows : List ρ) (uploaded : run.stage = .uploaded extraction)
      (found : world.objects run.job.location = some rows) :
      Effect world run .merge
        { world with merges := world.merges ++ [(run.job.table, rows)] }
        { run with stage := .merged extraction rows }

theorem rows_of_staged {extraction : Extraction ρ} {rows : List ρ} (staged : extraction.staged = some rows) :
    extraction.rows = rows := by
  rw [RunIncremental.Extraction.rows, staged]
  rfl

theorem advance_eq_some {job : Job ρ} {watermark : Reached}
    (advanced : advance world job watermark = some next) :
    next.objects = world.objects ∧ next.merges = world.merges ∧ next.runs = world.runs := by
  rcases Option.map_eq_some_iff.mp advanced with ⟨mark, _, rfl⟩
  exact ⟨rfl, rfl, rfl⟩

/-- A run that is neither about to merge nor past its merge. -/
theorem quiet_of_stage (stage : Stage ρ) (early : forall extraction, stage ≠ .uploaded extraction)
    (unmerged : Own world.merges { run with stage := stage }) :
    Effect world run event world { run with stage := stage } := by
  refine Effect.quiet event world _ rfl rfl rfl (fun _ extraction uploaded => ?_) (fun _ => unmerged)
  exact absurd uploaded (early extraction)

theorem effect_advance {extraction : Extraction ρ} {found : List ρ} {watermark : Reached}
    (advanced : advance world run.job watermark = some next)
    (own : Own world.merges run -> Own world.merges { run with stage := .advanced extraction found }) :
    Effect world run event next { run with stage := .advanced extraction found } := by
  rcases advance_eq_some advanced with ⟨objects, merges, runs⟩
  refine Effect.quiet event next _ objects merges runs (fun _ => ?_) own
  rintro other ⟨⟩

theorem stepRun_effect {moved : World ρ × Run ρ} (taken : stepRun world run event = some moved) :
    Effect world run event moved.1 moved.2 := by
  cases event with
  | readWatermark =>
      simp only [stepRun] at taken
      split at taken
      · cases taken
        exact quiet_of_stage _ (by rintro extraction ⟨⟩) trivial
      · cases taken
  | extract rows =>
      simp only [stepRun] at taken
      split at taken
      · rcases Option.map_eq_some_iff.mp taken with ⟨extraction, _, rfl⟩
        exact quiet_of_stage _ (by rintro extraction ⟨⟩) trivial
      · cases taken
  | upload =>
      simp only [stepRun] at taken
      split at taken
      · rename_i extraction extracted
        rcases Option.map_eq_some_iff.mp taken with ⟨rows, staged, rfl⟩
        exact Effect.upload extraction rows staged
      · cases taken
  | merge =>
      simp only [stepRun] at taken
      split at taken
      · rename_i extraction uploaded
        rcases Option.map_eq_some_iff.mp taken with ⟨rows, found, rfl⟩
        exact Effect.merge extraction rows uploaded found
      · cases taken
  | advance =>
      simp only [stepRun] at taken
      split at taken
      · rename_i extraction found merged
        rcases Option.map_eq_some_iff.mp taken with ⟨after, advanced, rfl⟩
        refine effect_advance advanced (fun own => ?_)
        simp only [Own, merged] at own
        exact own
      · rename_i extraction extracted
        split at taken
        · rename_i nothing
          rcases Option.map_eq_some_iff.mp taken with ⟨after, advanced, rfl⟩
          refine effect_advance advanced (fun _ => ?_)
          have none : extraction.rows = [] := by
            rw [RunIncremental.Extraction.rows, Option.isNone_iff_eq_none.mp nothing]
            rfl
          refine ⟨none.symm, fun row member => ?_⟩
          rw [none] at member
          cases member
        · cases taken
      · cases taken
  | fail =>
      cases taken
      refine Effect.quiet .fail world _ rfl rfl rfl ?_ (fun own => own)
      rintro _ extraction _ ⟨⟩

theorem waits_iff : run.waits = true ↔
    (Exists fun extraction : Extraction ρ => run.stage = .uploaded extraction) ∧ run.failed = false := by
  unfold Run.waits
  split
  · rename_i extraction uploaded
    rw [Bool.not_eq_true']
    exact ⟨fun going => ⟨⟨extraction, uploaded⟩, going⟩, And.right⟩
  · rename_i early
    constructor
    · intro contrary
      cases contrary
    · rintro ⟨⟨extraction, uploaded⟩, _⟩
      exact absurd uploaded (early extraction)

/-- The object of a run that waits is not the one that is uploaded. -/
theorem Ready.update {objects : String × String -> Option (List ρ)} (ready : Ready objects run)
    {job : Job ρ} (rows : List ρ) (apart : run.waits = true -> ¬ Collide job run.job) :
    Ready (Function.update objects job.location (some rows)) run := by
  intro extraction uploaded going
  have different : run.job.location ≠ job.location := by
    intro same
    exact apart (waits_iff.mpr ⟨⟨extraction, uploaded⟩, going⟩) (location_eq_iff.mp same.symm)
  rw [Function.update_of_ne different]
  exact ready extraction uploaded going

theorem mem_set {runs : List (Run ρ)} {index : Nat} {after other : Run ρ} (listed : runs[index]? = some run)
    (member : other ∈ runs.set index after) : other = after ∨ other ∈ runs.eraseIdx index := by
  rcases List.getElem?_eq_some_iff.mp listed with ⟨inside, _⟩
  exact List.mem_cons.mp ((List.set_perm_cons_eraseIdx inside after).mem_iff.mp member)

/-- A run that takes a step no other run is disturbed by. -/
theorem Good.stepRun {index : Nat} {after : Run ρ} (good : Good world) (listed : world.runs[index]? = some run)
    (going : run.failed = false) (undisturbed : Undisturbed world (.run index event))
    (effect : Effect world run event next after) : Good { next with runs := next.runs.set index after } := by
  have member : run ∈ world.runs := List.mem_of_getElem? listed
  have elsewhere {other : Run ρ} (listed : other ∈ world.runs.eraseIdx index) : other ∈ world.runs :=
    List.mem_of_mem_eraseIdx listed
  cases effect with
  | quiet event next after objects merges runs ready own =>
      refine ⟨fun other set => ?_, fun other set => ?_⟩
      · rw [runs] at set
        simp only [objects]
        rcases mem_set listed set with rfl | rest
        · exact ready (good.ready run member)
        · exact good.ready other (elsewhere rest)
      · rw [runs] at set
        simp only [merges]
        rcases mem_set listed set with rfl | rest
        · exact own (good.isolated run member)
        · exact good.isolated other (elsewhere rest)
  | upload extraction rows staged =>
      simp only [Undisturbed, listed] at undisturbed
      refine ⟨fun other set => ?_, fun other set => ?_⟩
      · rcases mem_set listed set with rfl | rest
        · rintro uploaded ⟨⟩ _
          rw [rows_of_staged staged]
          exact Function.update_self run.job.location (some rows) world.objects
        · exact (good.ready other (elsewhere rest)).update rows (undisturbed other rest)
      · rcases mem_set listed set with rfl | rest
        · trivial
        · exact good.isolated other (elsewhere rest)
  | merge extraction rows uploaded found =>
      -- The run finds what it has uploaded.
      have own : rows = extraction.rows :=
        Option.some.inj (found.symm.trans (good.ready run member extraction uploaded going))
      refine ⟨fun other set => ?_, fun other set => ?_⟩
      · rcases mem_set listed set with rfl | rest
        · rintro merged ⟨⟩
        · exact good.ready other (elsewhere rest)
      · rcases mem_set listed set with rfl | rest
        · refine ⟨own, fun row extracted => ⟨rows, List.mem_append_right _ (List.mem_singleton.mpr rfl), ?_⟩⟩
          rw [own]
          exact extracted
        · exact (good.isolated other (elsewhere rest)).grow _

theorem Good.step {event : Event ρ} (good : Good world) (undisturbed : Undisturbed world event)
    (taken : Staging.step world event = some next) : Good next := by
  cases event with
  | begin job =>
      cases taken
      refine ⟨fun run member => ?_, fun run member => ?_⟩
      · rcases List.mem_append.mp member with old | new
        · exact good.ready run old
        · rw [List.mem_singleton.mp new]
          rintro extraction ⟨⟩
      · rcases List.mem_append.mp member with old | new
        · exact good.isolated run old
        · rw [List.mem_singleton.mp new]
          trivial
  | run index event =>
      rcases Option.bind_eq_some_iff.mp taken with ⟨run, listed, steps⟩
      split at steps
      · cases steps
      · rename_i going
        rcases Option.map_eq_some_iff.mp steps with ⟨moved, stepped, rfl⟩
        exact good.stepRun listed (Bool.eq_false_iff.mpr going) undisturbed (stepRun_effect stepped)

/-- As long as no upload hits an object that another run has uploaded and not yet
merged, every merge reads the rows its own run extracted.  Two runs for different
databases with tables of one name can meet the exception, when they share a bucket
and a second. -/
theorem merges_read_own_rows (world : World ρ) (fresh : world.runs = []) (events : List (Event ρ))
    (last : World ρ) (undisturbed : Along Staging.step Undisturbed world events)
    (reached : Transition.run Staging.step world events = some last) : last.Isolated := by
  have none (run : Run ρ) (member : run ∈ world.runs) : False := by
    rw [fresh] at member
    cases member
  have start : Good world :=
    ⟨fun run member => (none run member).elim, fun run member => (none run member).elim⟩
  have good := run_invariant (fun _ _ _ good undisturbed taken => Good.step good undisturbed taken)
    start undisturbed reached
  exact good.isolated

instance decidableCollide (first other : Job ρ) : Decidable (Collide first other) :=
  inferInstanceAs (Decidable (_ ∧ _ ∧ _))

instance decidableUndisturbed (world : World ρ) : (event : Event ρ) -> Decidable (Undisturbed world event)
  | .run index .upload =>
      match found : world.runs[index]? with
      | none => isTrue (by simp only [Undisturbed, found])
      | some run => decidable_of_iff (forall waiting, waiting ∈ world.runs.eraseIdx index ->
          waiting.waits = true -> ¬ Collide run.job waiting.job) (by simp only [Undisturbed, found])
  | .begin _ => isTrue trivial
  | .run _ .readWatermark => isTrue trivial
  | .run _ (.extract _) => isTrue trivial
  | .run _ .merge => isTrue trivial
  | .run _ .advance => isTrue trivial
  | .run _ .fail => isTrue trivial

/-- The connection of a database; all of them write to one bucket. -/
def sampleConnection (id : Int) (name : String) : Connection :=
  { id := id, name := name, enabled := true, sourceDsn := "", awsAccessKey := none, awsSecretKey := none
    awsRegion := "us-east-1", lakeBucket := "lake", icebergNamespace := name, syncInclude := ""
    syncExclude := "", syncObjectTypes := "TABLE", syncSchemaBlacklist := "" }

/-- A run over rows of a version and an id. -/
def sampleJob (id : Int) (name : String) (now : Int) : Job (Int × Int) :=
  { conn := sampleConnection id name
    cfg := { schema := "public", table := "orders", partitionBy := [], watermarkColumn := some "updated_at"
             pk := "id", supportsParallelChunking := true }
    columns := { watermark := fun row => some row.1, id := fun row => some row.2 }
    kind := .integer, settings := { overlapSeconds := 2, gapSeconds := 1 }, now := now }

def sampleWorld : World (Int × Int) :=
  { objects := fun _ => none, watermarks := fun _ => none, merges := [], runs := [] }

/-- Two runs that upload before either of them merges. -/
def overlapping (first second : Job (Int × Int)) : List (Event (Int × Int)) :=
  [.begin first, .begin second, .run 0 .readWatermark, .run 1 .readWatermark, .run 0 (.extract [(5, 1)]),
    .run 1 (.extract [(9, 2)]), .run 0 .upload, .run 1 .upload, .run 0 .merge, .run 0 .advance]

/-- Begun in the same second, the first run merges the rows of the other
database into its table, and passes over its own. -/
theorem shared_bucket_mixes_windows :
    Exists fun last : World (Int × Int) =>
      Transition.run Staging.step sampleWorld
          (overlapping (sampleJob 1 "east" 100000000) (sampleJob 2 "west" 100400000)) = some last ∧
        last.merges = [(("east", "public__orders"), [(9, 2)])] ∧
        last.watermarks (1, "public.orders") = some { value := 5, lastId := 1 } ∧ ¬ last.Isolated := by
  refine ⟨_, rfl, by decide, by decide, fun isolated => ?_⟩
  have mixed := (isolated _ List.mem_cons_self).1
  exact absurd mixed (by decide)

/-- A second later nothing is mixed. -/
theorem later_window_apart :
    Exists fun last : World (Int × Int) =>
      Transition.run Staging.step sampleWorld
          (overlapping (sampleJob 1 "east" 100000000) (sampleJob 2 "west" 101000000)) = some last ∧
        last.Isolated := by
  refine ⟨_, rfl, ?_⟩
  exact merges_read_own_rows sampleWorld rfl
    (overlapping (sampleJob 1 "east" 100000000) (sampleJob 2 "west" 101000000)) _ (by decide) rfl

end Staging
end WarehouseSync

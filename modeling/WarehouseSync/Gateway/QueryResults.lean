import WarehouseSync.Gateway.StoredSecrets
import WarehouseSync.Library.Transition

namespace WarehouseSync
namespace QueryResults

open Auth ConfigStore Transition
open StoredSecrets (salesConnection salesState)

/-!
# Results of queries (`gateway/query.py`)

A submitted query runs in a thread of its own.  The thread asks for the results
connection when it begins, and uploads the result to the lake bucket of that
connection when it is done.  A request for the status asks for the results
connection again, to sign a URL for the result.  The results connection is the
first one that is enabled at the time.
-/

/-- A running job has the results connection that it began with.  The code keeps it
in a variable of the thread. -/
inductive JobStatus where
  | pending
  | running (rc : Connection)
  | succeeded
  | failed
deriving DecidableEq, Repr

structure Job where
  sql : String
  principalSub : String
  status : JobStatus
  rows : Option Nat
  bytesScanned : Option Nat
  resultS3Uri : Option String
  error : Option String
deriving DecidableEq, Repr

/-- The stored connections with the objects in S3, and the jobs of the process. -/
structure State where
  store : Store
  jobs : String -> Option Job

/-- The process starts without jobs. -/
def State.fresh (store : Store) : State :=
  { store := store, jobs := fun _ => none }

/-- `_results_connection`, unless no connection is enabled.  It is chosen anew each
time, so a job and the request for its result may get different ones. -/
def resultsConnection (state : State) : Option Connection :=
  (state.store.connections.filter (fun conn => conn.enabled)).head?

def resultKey (jobId : String) : String :=
  "gateway-results/" ++ jobId ++ ".parquet"

def resultUri (rc : Connection) (jobId : String) : String :=
  "s3://" ++ rc.lakeBucket ++ "/" ++ resultKey jobId

/-- A presigned URL, by the connection whose client made it and its parameters.
Whether it can be used depends on whether that connection has the bucket. -/
structure SignedUrl where
  client : Connection
  bucket : String
  key : String
  expiresIn : Nat
deriving DecidableEq, Repr

/-- `removeprefix("s3://").partition("/")`, without the separator. -/
def bucketAndKey (uri : String) : String × String :=
  let text := if "s3://".toList.isPrefixOf uri.toList then uri.toList.drop 5 else uri.toList
  (String.ofList (text.takeWhile (fun char => char != '/')),
    String.ofList ((text.dropWhile (fun char => char != '/')).drop 1))

/-- The URL of a result.  The bucket comes from the stored URI, but the client from
the connection that is the first one now. -/
def resultSignedUrl (state : State) (job : Job) : Except Rejection (Option SignedUrl) :=
  match App.nonblank job.resultS3Uri with
  | none => .ok none
  | some uri =>
      match resultsConnection state with
      | none => .error (.unhandled "no enabled connection available to store query results")
      | some conn => .ok (some
          { client := conn, bucket := (bucketAndKey uri).1, key := (bucketAndKey uri).2, expiresIn := 3600 })

structure QueryStatus where
  jobId : String
  status : JobStatus
  rows : Option Nat
  bytesScanned : Option Nat
  error : Option String
  resultSignedUrl : Option SignedUrl
deriving DecidableEq, Repr

def queryStatus (state : State) (jobId sub : String) : Except Rejection QueryStatus :=
  match state.jobs jobId with
  | none => .error (.http 404 "job not found")
  | some job =>
      if job.principalSub ≠ sub then .error (.http 403 "not your job")
      else do
        let url ← if job.status = .succeeded then resultSignedUrl state job else .ok none
        return { jobId := jobId, status := job.status, rows := job.rows, bytesScanned := job.bytesScanned
                 error := job.error, resultSignedUrl := url }

inductive Event where
  | create (columns : Store.ConnectionColumns)
  | delete (connectionId : Int)
  | setEnabled (connectionId : Int) (enabled : Bool)
  | submit (jobId sql sub : String)
  | begin (jobId : String)
  | finish (jobId content : String) (rows bytes : Nat)
  | fail (jobId error : String) (uploaded : Option String)
  | status (jobId sub : String)
deriving DecidableEq, Repr

/-- What an edit sends that only switches a connection on or off. -/
def switched (conn : Connection) (enabled : Bool) : Store.ConnectionColumns :=
  { name := conn.name, enabled := enabled, sourceDsn := conn.sourceDsn, awsAccessKey := conn.awsAccessKey
    awsSecretKey := conn.awsSecretKey, awsRegion := conn.awsRegion, lakeBucket := conn.lakeBucket
    icebergNamespace := conn.icebergNamespace }

/-- `submit`; the id is a new UUID, so no job has it and no result lies under its
key. -/
def submit (state : State) (jobId sql sub : String) : Option State :=
  if state.jobs jobId = none ∧ state.store.objects.all (fun object => object.key != resultKey jobId) = true then
    some { state with jobs := Function.update state.jobs jobId (some
      { sql := sql, principalSub := sub, status := .pending, rows := none, bytesScanned := none
        resultS3Uri := none, error := none }) }
  else none

def setJob (state : State) (jobId : String) (job : Job) : State :=
  { state with jobs := Function.update state.jobs jobId (some job) }

/-- `upload_file`. -/
def upload (state : State) (rc : Connection) (jobId content : String) : State :=
  { state with store := { state.store with
    objects := state.store.objects ++ [{ bucket := rc.lakeBucket, key := resultKey jobId, content := content }] } }

/-- `_run` until the query is executed.  The results connection is chosen here,
before there is a result. -/
def begin (state : State) (jobId : String) (job : Job) : State :=
  match resultsConnection state with
  | none => setJob state jobId { job with
      status := .failed
      error := some "RuntimeError('no enabled connection available to store query results')" }
  | some rc => setJob state jobId { job with status := .running rc }

/-- The rest of `_run`, when nothing raises: the result goes to the bucket of the
connection that was chosen at the beginning. -/
def finish (state : State) (jobId content : String) (job : Job) (rc : Connection) (rows bytes : Nat) : State :=
  setJob (upload state rc jobId content) jobId { job with
    rows := some rows, bytesScanned := some bytes, resultS3Uri := some (resultUri rc jobId), status := .succeeded }

/-- The rest of `_run` with an exception, before or after the upload.  What was
uploaded stays, but the job has no URI for it. -/
def fail (state : State) (jobId : String) (job : Job) (rc : Connection) (error : String)
    (uploaded : Option String) : State :=
  setJob (match uploaded with
    | none => state
    | some content => upload state rc jobId content) jobId { job with status := .failed, error := some error }

/-- A statement that breaks a constraint changes nothing, and is no step.
Connections are edited, jobs are run and results are asked for in any order. -/
def step (state : State) : Event -> Option State
  | .create columns => (state.store.insertConnection columns).map (fun store => { state with store := store })
  | .delete connectionId => some { state with store := state.store.deleteConnection connectionId }
  | .setEnabled connectionId enabled => (state.store.getConnection connectionId).bind (fun conn =>
      (state.store.updateConnection connectionId (switched conn enabled)).map
        (fun store => { state with store := store }))
  | .submit jobId sql sub => submit state jobId sql sub
  | .begin jobId =>
      match state.jobs jobId with
      | some job => if job.status = .pending then some (begin state jobId job) else none
      | none => none
  | .finish jobId content rows bytes =>
      match state.jobs jobId with
      | some job =>
          match job.status with
          | .running rc => some (finish state jobId content job rc rows bytes)
          | _ => none
      | none => none
  | .fail jobId error uploaded =>
      match state.jobs jobId with
      | some job =>
          match job.status with
          | .running rc => some (fail state jobId job rc error uploaded)
          | _ => none
      | none => none
  | .status _ _ => some state

/-- The lake bucket of the connection holds the result of the job.  Its credentials
are for that bucket, so its URLs then work. -/
def HoldsResult (state : State) (conn : Connection) (jobId : String) : Prop :=
  Exists fun object : S3Object => object ∈ state.store.objects ∧ object.bucket = conn.lakeBucket ∧
    object.key = resultKey jobId

/-- A URL in the answer was made with the client of a connection that holds the
result.  It is asked only of answers about jobs that have succeeded. -/
def SignedByOwner (state : State) : Event -> Prop
  | .status jobId sub => forall answer url, queryStatus state jobId sub = .ok answer ->
      answer.status = .succeeded -> answer.resultSignedUrl = some url -> HoldsResult state url.client jobId
  | _ => True

/-- Whenever the owner of a job that has succeeded asks for it, the first enabled
connection has the lake bucket that the first one had when the job began.  It is a
condition on the edits and on the order of the events. -/
def ResultsStand (start : State) (events : List Event) : Prop :=
  forall jobId sub first middle rest earlier later job before after,
    events = first ++ .begin jobId :: (middle ++ .status jobId sub :: rest) ->
    run step start first = some earlier ->
    run step start (first ++ .begin jobId :: middle) = some later ->
    later.jobs jobId = some job -> job.status = .succeeded -> job.principalSub = sub ->
    resultsConnection earlier = some before -> resultsConnection later = some after ->
      before.lakeBucket = after.lakeBucket

/-! ## What a step does -/

/-- Nothing is stored under the key of the job. -/
def Unwritten (state : State) (jobId : String) : Prop :=
  forall object, object ∈ state.store.objects -> object.key ≠ resultKey jobId

/-- What a step does to the jobs and to the objects.  Edits of connections do
nothing to either, and are one case with the requests. -/
inductive Effect (state : State) : Event -> State -> Prop where
  | elsewhere (event : Event) (next : State) (jobs : next.jobs = state.jobs)
      (objects : next.store.objects = state.store.objects) : Effect state event next
  | submitted (jobId sql sub : String) (job : Job) (pending : job.status = .pending)
      (absent : state.jobs jobId = none) (unwritten : Unwritten state jobId) :
      Effect state (.submit jobId sql sub) (setJob state jobId job)
  | refused (jobId : String) (job : Job) (failed : job.status = .failed) :
      Effect state (.begin jobId) (setJob state jobId job)
  | began (jobId : String) (job : Job) (rc : Connection) (found : state.jobs jobId = some job)
      (pending : job.status = .pending) (chosen : resultsConnection state = some rc) :
      Effect state (.begin jobId) (setJob state jobId { job with status := .running rc })
  | finished (jobId content : String) (job : Job) (rc : Connection) (rows bytes : Nat)
      (found : state.jobs jobId = some job) (running : job.status = .running rc) :
      Effect state (.finish jobId content rows bytes) (finish state jobId content job rc rows bytes)
  | failed (jobId error : String) (job : Job) (rc : Connection) (uploaded : Option String) :
      Effect state (.fail jobId error uploaded) (fail state jobId job rc error uploaded)

variable {state next : State} {event : Event} {jobId : String} {job : Job} {rc : Connection}

theorem effect_submit {sql sub : String} (taken : submit state jobId sql sub = some next) :
    Effect state (.submit jobId sql sub) next := by
  unfold submit at taken
  split at taken
  · rename_i free
    cases taken
    apply Effect.submitted jobId sql sub _ rfl free.1
    intro object member
    exact bne_iff_ne.mp (List.all_eq_true.mp free.2 object member)
  · cases taken

theorem step_begin (taken : step state (.begin jobId) = some next) : Exists fun job : Job =>
    state.jobs jobId = some job ∧ job.status = .pending ∧ next = begin state jobId job := by
  simp only [step] at taken
  split at taken
  · rename_i job found
    split at taken
    · rename_i pending
      cases taken
      exact ⟨job, found, pending, rfl⟩
    · cases taken
  · cases taken

theorem effect_begin (found : state.jobs jobId = some job) (pending : job.status = .pending) :
    Effect state (.begin jobId) (begin state jobId job) := by
  unfold begin
  split
  · exact Effect.refused jobId _ rfl
  · rename_i rc chosen
    exact Effect.began jobId job rc found pending chosen

theorem effect_of_step (taken : step state event = some next) : Effect state event next := by
  cases event with
  | create columns =>
      rcases Option.map_eq_some_iff.mp taken with ⟨store, done, rfl⟩
      rcases Store.insertConnection_eq_some done with ⟨_, rfl⟩
      exact Effect.elsewhere _ _ rfl rfl
  | delete connectionId =>
      cases taken
      exact Effect.elsewhere _ _ rfl rfl
  | setEnabled connectionId enabled =>
      rcases Option.bind_eq_some_iff.mp taken with ⟨conn, _, changed⟩
      rcases Option.map_eq_some_iff.mp changed with ⟨store, done, rfl⟩
      rcases Store.updateConnection_eq_some done with ⟨_, rfl⟩
      exact Effect.elsewhere _ _ rfl rfl
  | submit jobId sql sub => exact effect_submit taken
  | begin jobId =>
      rcases step_begin taken with ⟨job, found, pending, rfl⟩
      exact effect_begin found pending
  | finish jobId content rows bytes =>
      simp only [step] at taken
      split at taken
      · rename_i job found
        split at taken
        · rename_i rc running
          cases taken
          exact Effect.finished jobId content job rc rows bytes found running
        · cases taken
      · cases taken
  | fail jobId error uploaded =>
      simp only [step] at taken
      split at taken
      · rename_i job found
        split at taken
        · cases taken
          exact Effect.failed jobId error job _ uploaded
        · cases taken
      · cases taken
  | status jobId sub =>
      cases taken
      exact Effect.elsewhere _ _ rfl rfl

theorem resultKey_injective {first second : String} (same : resultKey first = resultKey second) :
    first = second := by
  have starts := (String.append_left_inj ".parquet").mp same
  exact (String.append_right_inj "gateway-results/").mp starts

/-- The result of the job is in the bucket, and in no other one.  The second half is
what makes the condition necessary. -/
def WrittenTo (state : State) (jobId bucket : String) : Prop :=
  (Exists fun object : S3Object => object ∈ state.store.objects ∧ object.bucket = bucket ∧
    object.key = resultKey jobId) ∧
  forall object, object ∈ state.store.objects -> object.key = resultKey jobId -> object.bucket = bucket

/-- The job has written its result when it has succeeded and not before, to the
bucket of a connection with the property. -/
def Reached (state : State) (jobId : String) (chosen : Connection -> Prop) (job : Job) : Prop :=
  match job.status with
  | .pending => Unwritten state jobId
  | .running rc => chosen rc ∧ Unwritten state jobId
  | .succeeded => Exists fun rc : Connection => chosen rc ∧ job.resultS3Uri = some (resultUri rc jobId) ∧
      WrittenTo state jobId rc.lakeBucket
  | .failed => True

/-- Where the two states store the same under the key of the job. -/
theorem Reached.mono {chosen later : Connection -> Prop} (weaken : forall rc, chosen rc -> later rc)
    (objects : forall object : S3Object, object.key = resultKey jobId ->
      (object ∈ next.store.objects ↔ object ∈ state.store.objects))
    (reached : Reached state jobId chosen job) : Reached next jobId later job := by
  have still : Unwritten state jobId -> Unwritten next jobId :=
    fun unwritten object member key => unwritten object ((objects object key).mp member) key
  unfold Reached at reached ⊢
  cases status : job.status with
  | pending =>
      rw [status] at reached
      exact still reached
  | running rc =>
      rw [status] at reached
      exact ⟨weaken rc reached.1, still reached.2⟩
  | failed => trivial
  | succeeded =>
      rw [status] at reached
      rcases reached with ⟨rc, before, uri, ⟨object, member, bucket, key⟩, only⟩
      refine ⟨rc, weaken rc before, uri, ⟨object, (objects object key).mpr member, bucket, key⟩, ?_⟩
      intro other stored same
      exact only other ((objects other same).mp stored) same

theorem mem_upload {content : String} {object : S3Object} :
    object ∈ (upload state rc jobId content).store.objects ↔
      object ∈ state.store.objects ∨
        object = { bucket := rc.lakeBucket, key := resultKey jobId, content := content } := by
  simp only [upload, List.mem_append, List.mem_singleton]

/-- Jobs do not write to each other's keys. -/
theorem mem_upload_of_ne {other content : String} (different : jobId ≠ other) (object : S3Object)
    (key : object.key = resultKey jobId) :
    object ∈ (upload state rc other content).store.objects ↔ object ∈ state.store.objects := by
  rw [mem_upload]
  constructor
  · rintro (before | rfl)
    · exact before
    · exact absurd (resultKey_injective key.symm) different
  · exact Or.inl

theorem writtenTo_upload (unwritten : Unwritten state jobId) (content : String) :
    WrittenTo (upload state rc jobId content) jobId rc.lakeBucket := by
  refine ⟨⟨_, mem_upload.mpr (Or.inr rfl), rfl, rfl⟩, ?_⟩
  intro object member key
  rcases mem_upload.mp member with before | rfl
  · exact absurd key (unwritten object before)
  · rfl

theorem jobs_setJob (state : State) (jobId other : String) (job : Job) :
    (setJob state jobId job).jobs other = if other = jobId then some job else state.jobs other :=
  Function.update_apply state.jobs jobId (some job) other

/-- What is stored of the other jobs does not change with one of them. -/
theorem reached_setJob {chosen : Connection -> Prop} {other : String} {changed : Job}
    (self : other = jobId -> Reached state other chosen changed)
    (rest : forall kept, other ≠ jobId -> state.jobs other = some kept -> Reached state other chosen kept)
    (found : (setJob state jobId changed).jobs other = some job) :
    Reached (setJob state jobId changed) other chosen job := by
  rw [jobs_setJob] at found
  split at found
  · rename_i same
    cases found
    exact self same
  · rename_i different
    exact rest job different found

/-- A step takes each job on; a job that begins has the results connection of the
time. -/
theorem reached_step {chosen later : Connection -> Prop} (weaken : forall rc, chosen rc -> later rc)
    (begins : forall job rc, event = .begin jobId -> state.jobs jobId = some job -> job.status = .pending ->
      resultsConnection state = some rc -> later rc)
    (held : forall job, state.jobs jobId = some job -> Reached state jobId chosen job)
    (taken : step state event = some next) :
    forall job, next.jobs jobId = some job -> Reached next jobId later job := by
  have onward : forall kept, state.jobs jobId = some kept -> Reached state jobId later kept :=
    fun kept before => (held kept before).mono weaken (fun _ _ => Iff.rfl)
  intro job found
  cases effect_of_step taken with
  | elsewhere event next jobs objects =>
      rw [jobs] at found
      refine (onward job found).mono (fun _ => id) (fun object _ => ?_)
      rw [objects]
  | submitted other sql sub new pending absent unwritten =>
      refine reached_setJob (fun same => ?_) (fun kept _ before => onward kept before) found
      subst same
      unfold Reached
      rw [pending]
      exact unwritten
  | refused other refused failed =>
      refine reached_setJob (fun same => ?_) (fun kept _ before => onward kept before) found
      unfold Reached
      rw [failed]
      trivial
  | began other before rc present pending connection =>
      refine reached_setJob (fun same => ?_) (fun kept _ before => onward kept before) found
      subst same
      have unwritten := held before present
      unfold Reached at unwritten
      rw [pending] at unwritten
      exact ⟨begins before rc rfl present pending connection, unwritten⟩
  | finished other content before rc rows bytes present running =>
      refine reached_setJob (fun same => ?_) (fun kept different earlier => ?_) found
      · subst same
        have unwritten := held before present
        unfold Reached at unwritten
        rw [running] at unwritten
        exact ⟨rc, weaken rc unwritten.1, rfl, writtenTo_upload unwritten.2 content⟩
      · exact (onward kept earlier).mono (fun _ => id) (mem_upload_of_ne different)
  | failed other error before rc uploaded =>
      refine reached_setJob (fun same => ?_) (fun kept different earlier => ?_) found
      · trivial
      · cases uploaded with
        | none => exact onward kept earlier
        | some content => exact (onward kept earlier).mono (fun _ => id) (mem_upload_of_ne different)

def Started (state : State) (jobId : String) : Prop :=
  Exists fun job : Job => state.jobs jobId = some job ∧ job.status ≠ .pending

theorem Started.setJob {other : String} {changed : Job} (started : Started state jobId)
    (status : changed.status ≠ .pending) : Started (setJob state other changed) jobId := by
  rcases started with ⟨job, found, began⟩
  by_cases same : jobId = other
  · exact ⟨changed, by rw [jobs_setJob, if_pos same], status⟩
  · exact ⟨job, by rw [jobs_setJob, if_neg same, found], began⟩

/-- No job begins twice. -/
theorem started_step (started : Started state jobId) (taken : step state event = some next) :
    Started next jobId := by
  cases effect_of_step taken with
  | elsewhere event next jobs objects =>
      rcases started with ⟨job, found, began⟩
      exact ⟨job, by rw [jobs, found], began⟩
  | submitted other sql sub new pending absent unwritten =>
      rcases started with ⟨job, found, began⟩
      refine ⟨job, ?_, began⟩
      rw [jobs_setJob, if_neg, found]
      intro same
      rw [same, absent] at found
      cases found
  | refused other refused failed =>
      apply started.setJob
      rw [failed]
      exact JobStatus.noConfusion
  | began other before rc present pending connection =>
      exact started.setJob JobStatus.noConfusion
  | finished other content before rc rows bytes present running =>
      have uploaded : Started (upload state rc other content) jobId := started
      exact uploaded.setJob JobStatus.noConfusion
  | failed other error before rc uploaded =>
      apply Started.setJob _ JobStatus.noConfusion
      cases uploaded <;> exact started

/-! ## Over a run -/

/-- The job began in the run, with the connection as the results connection.  It is
read off the events, since the state does not keep when a job began. -/
def Began (start : State) (done : List Event) (jobId : String) (rc : Connection) : Prop :=
  Exists fun first : List Event => Exists fun middle : List Event => Exists fun earlier : State =>
    done = first ++ .begin jobId :: middle ∧ run step start first = some earlier ∧
      resultsConnection earlier = some rc

variable {store : Store} {events : List Event}

theorem reached_of_run (reached : run step (State.fresh store) events = some state) :
    forall jobId job, state.jobs jobId = some job ->
      Reached state jobId (Began (State.fresh store) events jobId) job := by
  apply run_history _ _ reached
  · intro jobId job absent
    cases absent
  · intro done event middle next ran held taken jobId
    apply reached_step _ _ (held jobId) taken
    · rintro rc ⟨first, rest, earlier, rfl, before, chosen⟩
      exact ⟨first, rest ++ [event], earlier, by rw [List.append_assoc, List.cons_append], before, chosen⟩
    · rintro job rc rfl _ _ chosen
      exact ⟨done, [], middle, rfl, ran, chosen⟩

/-- The job has begun, and the connection was the results connection then.  Every
later step keeps this. -/
def BegunWith (rc : Connection) (jobId : String) (state : State) : Prop :=
  Started state jobId ∧ forall job, state.jobs jobId = some job -> Reached state jobId (fun conn => conn = rc) job

theorem begunWith_begin (unwritten : Unwritten state jobId)
    (chosen : resultsConnection state = some rc) : BegunWith rc jobId (begin state jobId job) := by
  unfold begin
  rw [chosen]
  refine ⟨⟨_, Function.update_self .., JobStatus.noConfusion⟩, ?_⟩
  intro running found
  cases (Function.update_self ..).symm.trans found
  exact ⟨rfl, unwritten⟩

theorem BegunWith.preserved (begun : BegunWith rc jobId state) (taken : step state event = some next) :
    BegunWith rc jobId next := by
  refine ⟨started_step begun.1 taken, reached_step (fun _ same => same) ?_ begun.2 taken⟩
  intro job other _ present pending _
  rcases begun.1 with ⟨same, before, began⟩
  cases present.symm.trans before
  exact absurd pending began

/-- The result goes to the bucket of the connection that the job began with. -/
theorem reached_after_begin {earlier later : State} {first middle : List Event}
    (ran : run step (State.fresh store) first = some earlier) (chosen : resultsConnection earlier = some rc)
    (onward : run step earlier (.begin jobId :: middle) = some later) (found : later.jobs jobId = some job) :
    Reached later jobId (fun conn => conn = rc) job := by
  rcases run_cons_eq_some.mp onward with ⟨next, taken, rest⟩
  rcases step_begin taken with ⟨before, present, pending, rfl⟩
  have unwritten := reached_of_run ran jobId before present
  unfold Reached at unwritten
  rw [pending] at unwritten
  have kept : BegunWith rc jobId later :=
    run_invariant_always (fun _ _ _ begun taken => begun.preserved taken)
      (begunWith_begin unwritten chosen) rest
  exact kept.2 job found

theorem nonblank_resultUri (rc : Connection) (jobId : String) :
    App.nonblank (some (resultUri rc jobId)) = some (resultUri rc jobId) := by
  have scheme : resultUri rc jobId ≠ "" := by
    intro blank
    have characters := congrArg String.toList blank
    rw [resultUri, String.toList_append, String.toList_append, String.toList_append] at characters
    exact List.cons_ne_nil 's' _ characters
  unfold App.nonblank
  simp [scheme]

theorem resultSignedUrl_eq_ok {url : SignedUrl} (signed : resultSignedUrl state job = .ok (some url)) :
    resultsConnection state = some url.client := by
  unfold resultSignedUrl at signed
  split at signed
  · cases signed
  · split at signed
    · cases signed
    · rename_i conn chosen
      cases signed
      exact chosen

theorem queryStatus_of_owner {sub : String} (found : state.jobs jobId = some job)
    (succeeded : job.status = .succeeded) (owner : job.principalSub = sub) :
    queryStatus state jobId sub = (resultSignedUrl state job).map (fun url =>
      { jobId := jobId, status := .succeeded, rows := job.rows, bytesScanned := job.bytesScanned
        error := job.error, resultSignedUrl := url }) := by
  unfold queryStatus
  simp only [found, succeeded, owner, if_true, ne_eq, not_true_eq_false, if_false]
  rfl

theorem queryStatus_eq_ok {sub : String} {answer : QueryStatus} {url : SignedUrl}
    (answered : queryStatus state jobId sub = .ok answer) (succeeded : answer.status = .succeeded)
    (shown : answer.resultSignedUrl = some url) :
    Exists fun job : Job => state.jobs jobId = some job ∧ job.status = .succeeded ∧ job.principalSub = sub ∧
      resultsConnection state = some url.client := by
  cases found : state.jobs jobId with
  | none =>
      simp only [queryStatus, found] at answered
      cases answered
  | some job =>
      by_cases owner : job.principalSub = sub
      · by_cases finished : job.status = .succeeded
        · rw [queryStatus_of_owner found finished owner] at answered
          cases signed : resultSignedUrl state job with
          | error rejection =>
              rw [signed] at answered
              cases answered
          | ok link =>
              rw [signed] at answered
              cases answered
              cases shown
              exact ⟨job, rfl, finished, owner, resultSignedUrl_eq_ok signed⟩
        · simp only [queryStatus, found, owner, finished, ne_eq, not_true_eq_false, if_false] at answered
          cases answered
          exact absurd succeeded finished
      · simp only [queryStatus, found, owner, ne_eq, not_false_eq_true, if_true] at answered
        cases answered

theorem signed_of_succeeded {sub : String} {conn : Connection} (found : state.jobs jobId = some job)
    (succeeded : job.status = .succeeded) (owner : job.principalSub = sub)
    (uri : job.resultS3Uri = some (resultUri rc jobId)) (chosen : resultsConnection state = some conn) :
    Exists fun answer : QueryStatus => Exists fun url : SignedUrl => queryStatus state jobId sub = .ok answer ∧
      answer.status = .succeeded ∧ answer.resultSignedUrl = some url ∧ url.client = conn := by
  rw [queryStatus_of_owner found succeeded owner]
  unfold resultSignedUrl
  rw [uri, nonblank_resultUri, chosen]
  exact ⟨_, _, rfl, rfl, rfl, rfl⟩

/-- Every URL is signed by the owner of the result exactly if the results connection
keeps its bucket from when a job begins to when its result is asked for. -/
theorem signed_by_owner_iff (store : Store) (events : List Event) :
    Along step SignedByOwner (State.fresh store) events ↔ ResultsStand (State.fresh store) events := by
  constructor
  · intro along jobId sub first middle rest earlier later job before after split ran ranOn found succeeded owner
      chosen changed
    have regrouped : events = (first ++ .begin jobId :: middle) ++ .status jobId sub :: rest := by
      rw [split, List.append_assoc, List.cons_append]
    have signed := along_iff_splits.mp along _ _ rest later regrouped ranOn
    rcases run_append_eq_some.mp ranOn with ⟨_, same, onward⟩
    cases ran.symm.trans same
    have written := reached_after_begin ran chosen onward found
    unfold Reached at written
    rw [succeeded] at written
    rcases written with ⟨rc, rfl, uri, _, only⟩
    rcases signed_of_succeeded found succeeded owner uri changed with ⟨answer, url, answered, done, shown, rfl⟩
    rcases signed answer url answered done shown with ⟨object, member, bucket, key⟩
    exact (only object member key).symm.trans bucket
  · intro stand
    apply along_iff_splits.mpr
    intro done event rest state split ran
    cases event with
    | status jobId sub =>
        intro answer url answered succeeded shown
        rcases queryStatus_eq_ok answered succeeded shown with ⟨job, found, finished, owner, chosen⟩
        have written := reached_of_run ran jobId job found
        unfold Reached at written
        rw [finished] at written
        rcases written with ⟨rc, ⟨first, middle, earlier, rfl, before, began⟩, _, ⟨object, member, bucket, key⟩, _⟩
        have same := stand jobId sub first middle rest earlier state job rc url.client
          (by rw [split, List.append_assoc, List.cons_append]) before ran found finished owner began chosen
        exact ⟨object, member, bucket.trans same, key⟩
    | _ => trivial

/-- A second connection, with a bucket of its own. -/
def hrConnection : Connection :=
  { salesConnection with id := 2, name := "hr", lakeBucket := "hr-lake", icebergNamespace := "hr" }

def twoConnections : Store :=
  { salesState.store with connections := [salesConnection, hrConnection], nextConnectionId := 3 }

/-- The sales connection stores the result and is then disabled. -/
theorem disabled_owner_does_not_sign :
    Not (Along step SignedByOwner (State.fresh twoConnections)
      [.submit "j1" "SELECT 1" "ana", .begin "j1", .finish "j1" "rows" 1 4, .setEnabled 1 false,
        .status "j1" "ana"]) := by
  intro along
  have asked := ((((along.2 _ rfl).2 _ rfl).2 _ rfl).2 _ rfl).1
  rcases asked _ _ rfl rfl rfl with ⟨object, member, bucket, _⟩
  cases List.mem_singleton.mp member
  exact absurd bucket (by decide)

end QueryResults
end WarehouseSync

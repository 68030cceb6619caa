import WarehouseSync.Gateway.QueryResults
import WarehouseSync.Library.Memo

namespace WarehouseSync
namespace QueryJobs

open Auth ConfigStore Transition
open QueryResults (SignedUrl bucketAndKey resultKey resultUri)

/-!
# Answers about running queries (`gateway/query.py`)

A job is an object that its thread writes one attribute at a time, and that a
request for the status reads one attribute at a time, without a lock.  The
request reads `status` twice.  An answer may therefore mix attributes of
different moments; what it can still not say is shown here.
-/

inductive Status where
  | pending
  | running
  | succeeded
  | failed
deriving DecidableEq, Repr

/-- The attributes of a job as other threads see them.  They are assigned one by
one, and nothing is locked. -/
structure Job where
  sql : String
  principalSub : String
  status : Status
  rows : Option Nat
  bytesScanned : Option Nat
  resultS3Uri : Option String
  error : Option String
deriving DecidableEq, Repr

/-- The Parquet file of a query. -/
structure Result where
  content : String
  rows : Nat
  bytes : Nat
deriving DecidableEq, Repr

/-- What `_run` does next.  Each assignment to an attribute is a stage of its own,
because a request may read the job between any two. -/
inductive Stage where
  | queued
  | choosing
  | executing (rc : Connection)
  | counting (rc : Connection) (result : Result)
  | measuring (rc : Connection) (result : Result)
  | locating (rc : Connection) (result : Result)
  | closing (rc : Connection) (result : Result)
  | stored (rc : Connection) (result : Result)
  | raised (error : String)
  | excusing (error : String)
  | failed (error : String)
deriving DecidableEq, Repr

/-- A job and the thread that runs it; the stage is where the thread is, and no
request sees it. -/
structure Task where
  job : Job
  stage : Stage
deriving DecidableEq, Repr

/-- The next assignment, the query with its upload, or an exception. -/
inductive Act where
  | advance
  | store (result : Result)
  | raise (error : String)
deriving DecidableEq, Repr

/-- `repr(e)[:2000]`, of the representation. -/
def cut (error : String) : String :=
  String.ofList (error.toList.take 2000)

def noConnection : String :=
  "RuntimeError('no enabled connection available to store query results')"

/-- The next assignment of the thread.  The status is set before the error, so a
failed job is seen without its error for a moment. -/
def Task.advance (results : Option Connection) (jobId : String) (task : Task) : Option Task :=
  match task.stage with
  | .queued => some { job := { task.job with status := .running }, stage := .choosing }
  | .choosing =>
      match results with
      | some rc => some { task with stage := .executing rc }
      | none => some { task with stage := .raised noConnection }
  | .executing _ => none
  | .counting rc result => some { job := { task.job with rows := some result.rows }, stage := .measuring rc result }
  | .measuring rc result =>
      some { job := { task.job with bytesScanned := some result.bytes }, stage := .locating rc result }
  | .locating rc result =>
      some { job := { task.job with resultS3Uri := some (resultUri rc jobId) }, stage := .closing rc result }
  | .closing rc result => some { job := { task.job with status := .succeeded }, stage := .stored rc result }
  | .stored _ _ => none
  | .raised error => some { job := { task.job with status := .failed }, stage := .excusing error }
  | .excusing error => some { job := { task.job with error := some (cut error) }, stage := .failed error }
  | .failed _ => none

/-- One step of the thread.  The query may raise at any point until the result is
described, but not between the last assignments. -/
def Task.act (results : Option Connection) (jobId : String) (task : Task) : Act -> Option Task
  | .advance => task.advance results jobId
  | .store result =>
      match task.stage with
      | .executing rc => some { task with stage := .counting rc result }
      | _ => none
  | .raise error =>
      match task.stage with
      | .choosing | .executing _ | .counting _ _ | .measuring _ _ => some { task with stage := .raised error }
      | _ => none

/-- What an act uploads. -/
def Task.uploads (jobId : String) (task : Task) : Act -> List S3Object
  | .store result =>
      match task.stage with
      | .executing rc => [{ bucket := rc.lakeBucket, key := resultKey jobId, content := result.content }]
      | _ => []
  | _ => []

structure QueryStatus where
  jobId : String
  status : Status
  rows : Option Nat
  bytesScanned : Option Nat
  error : Option String
  resultSignedUrl : Option SignedUrl
deriving DecidableEq, Repr

/-- What is read next: after `error` the status `again`, then the URI, once to see
whether there is one and once to sign it. -/
inductive Attribute where
  | status
  | rows
  | bytesScanned
  | error
  | again
  | uri
  | sign
deriving DecidableEq, Repr

inductive Poll where
  | reading (next : Attribute) (answer : QueryStatus)
  | answered (answer : QueryStatus)
  | rejected (rejection : Rejection)
deriving DecidableEq, Repr

def unread (jobId : String) : QueryStatus :=
  { jobId := jobId, status := .pending, rows := none, bytesScanned := none, error := none, resultSignedUrl := none }

def sign (conn : Connection) (uri : String) : SignedUrl :=
  { client := conn, bucket := (bucketAndKey uri).1, key := (bucketAndKey uri).2, expiresIn := 3600 }

/-- The next reading of a request.  The status is read twice, and the job may have
succeeded in between, so the answer may have a URL beside an older status. -/
def read (results : Option Connection) (job : Job) (answer : QueryStatus) : Attribute -> Poll
  | .status => .reading .rows { answer with status := job.status }
  | .rows => .reading .bytesScanned { answer with rows := job.rows }
  | .bytesScanned => .reading .error { answer with bytesScanned := job.bytesScanned }
  | .error => .reading .again { answer with error := job.error }
  | .again => if job.status = .succeeded then .reading .uri answer else .answered answer
  | .uri => if (App.nonblank job.resultS3Uri).isSome then .reading .sign answer else .answered answer
  | .sign =>
      match job.resultS3Uri, results with
      | none, _ => .rejected (.unhandled "'NoneType' object has no attribute 'removeprefix'")
      | some _, none => .rejected (.unhandled "no enabled connection available to store query results")
      | some uri, some conn => .answered { answer with resultSignedUrl := some (sign conn uri) }

/-- The connections, the objects in S3, the jobs with their threads, and the
requests that are being answered. -/
structure State where
  connections : List Connection
  objects : List S3Object
  tasks : String -> Option Task
  polls : Nat -> Option Poll

def State.fresh (connections : List Connection) (objects : List S3Object) : State :=
  { connections := connections, objects := objects, tasks := fun _ => none, polls := fun _ => none }

def State.resultsConnection (state : State) : Option Connection :=
  (state.connections.filter (fun conn => conn.enabled)).head?

def State.setTask (state : State) (jobId : String) (task : Task) : State :=
  { state with tasks := Function.update state.tasks jobId (some task) }

def State.setPoll (state : State) (poll : Nat) (status : Poll) : State :=
  { state with polls := Function.update state.polls poll (some status) }

def State.upload (state : State) (objects : List S3Object) : State :=
  { state with objects := state.objects ++ objects }

def submitted (sql sub : String) : Task :=
  { job := { sql := sql, principalSub := sub, status := .pending, rows := none, bytesScanned := none
             resultS3Uri := none, error := none }
    stage := .queued }

/-- `query_status` until it reads the first attribute that changes.  Who has
submitted the job never changes, so that is checked at once. -/
def State.ask (state : State) (jobId sub : String) : Poll :=
  match state.tasks jobId with
  | none => .rejected (.http 404 "job not found")
  | some task =>
      if task.job.principalSub ≠ sub then .rejected (.http 403 "not your job")
      else .reading .status (unread jobId)

inductive Event where
  | edit (connections : List Connection)
  | submit (jobId sql sub : String)
  | act (jobId : String) (act : Act)
  | ask (poll : Nat) (jobId sub : String)
  | read (poll : Nat)
deriving DecidableEq, Repr

/-- One assignment, one reading, or an edit of the connections.  Requests and
threads take their steps in any order. -/
def step (state : State) : Event -> Option State
  | .edit connections => some { state with connections := connections }
  | .submit jobId sql sub =>
      match state.tasks jobId with
      | some _ => none
      | none => some (state.setTask jobId (submitted sql sub))
  | .act jobId act =>
      (state.tasks jobId).bind (fun task => (task.act state.resultsConnection jobId act).map (fun next =>
        (state.upload (task.uploads jobId act)).setTask jobId next))
  | .ask poll jobId sub =>
      match state.polls poll with
      | some _ => none
      | none => some (state.setPoll poll (state.ask jobId sub))
  | .read poll =>
      match state.polls poll with
      | some (.reading next answer) => (state.tasks answer.jobId).map (fun task =>
          state.setPoll poll (read state.resultsConnection task.job answer next))
      | _ => none

/-! ## What a job is at each stage -/

/-- A status never changes but so: it goes from pending to running, and from there
to one of the two ends. -/
def Status.Reaches (first second : Status) : Prop :=
  first = second ∨ first = .pending ∨ first = .running ∧ second ≠ .pending

theorem Status.Reaches.refl (status : Status) : status.Reaches status :=
  Or.inl rfl

theorem Status.Reaches.trans {first second third : Status} (left : first.Reaches second)
    (right : second.Reaches third) : first.Reaches third := by
  rcases left with rfl | rfl | ⟨rfl, begun⟩
  · exact right
  · exact Or.inr (Or.inl rfl)
  · rcases right with rfl | rfl | ⟨rfl, onward⟩
    · exact Or.inr (Or.inr ⟨rfl, begun⟩)
    · exact absurd rfl begun
    · exact Or.inr (Or.inr ⟨rfl, onward⟩)

theorem Status.Reaches.of_succeeded {status : Status} (reaches : Status.succeeded.Reaches status) :
    status = .succeeded := by
  rcases reaches with rfl | impossible | ⟨impossible, _⟩
  · rfl
  · cases impossible
  · cases impossible

def Stage.status : Stage -> Status
  | .queued => .pending
  | .stored _ _ => .succeeded
  | .excusing _ | .failed _ => .failed
  | _ => .running

def Stage.error : Stage -> Option String
  | .failed error => some (cut error)
  | _ => none

def Stage.uri (jobId : String) : Stage -> Option String
  | .closing rc _ | .stored rc _ => some (resultUri rc jobId)
  | _ => none

/-- What the thread holds once the upload is done. -/
def Stage.result : Stage -> Option (Connection × Result)
  | .counting rc result | .measuring rc result | .locating rc result | .closing rc result | .stored rc result =>
      some (rc, result)
  | _ => none

def Stage.rows : Stage -> Option Nat
  | .measuring _ result | .locating _ result | .closing _ result | .stored _ result => some result.rows
  | _ => none

def Stage.bytes : Stage -> Option Nat
  | .locating _ result | .closing _ result | .stored _ result => some result.bytes
  | _ => none

/-- The attributes follow from the stage, except for what an exception left behind.
The result is uploaded before the job says so. -/
structure Task.Fits (jobId : String) (objects : List S3Object) (task : Task) : Prop where
  status : task.job.status = task.stage.status
  error : task.job.error = task.stage.error
  uri : task.job.resultS3Uri = task.stage.uri jobId
  rows : task.stage.rows = none ∨ task.job.rows = task.stage.rows
  bytes : task.stage.bytes = none ∨ task.job.bytesScanned = task.stage.bytes
  uploaded : forall held, held ∈ task.stage.result ->
    { bucket := held.1.lakeBucket, key := resultKey jobId, content := held.2.content } ∈ objects

/-- What an act does to the attributes: it only ever happens to a job that is not at
its end.  Readings that were made before it are compared with the job by this. -/
structure Task.Moves (task next : Task) : Prop where
  forward : task.job.status.Reaches next.job.status
  unfinished : task.job.status ≠ .succeeded
  unexcused : task.job.error = none

variable {jobId : String} {objects : List S3Object} {task next : Task} {results : Option Connection} {move : Act}

theorem fits_submitted (sql sub : String) : (submitted sql sub).Fits jobId objects where
  status := rfl
  error := rfl
  uri := rfl
  rows := Or.inl rfl
  bytes := Or.inl rfl
  uploaded := fun _ none => by cases none

theorem Task.Fits.more {more : List S3Object} (fits : task.Fits jobId objects) : task.Fits jobId (objects ++ more) :=
  { fits with uploaded := fun held found => List.mem_append_left more (fits.uploaded held found) }

theorem Task.Fits.advance (fits : task.Fits jobId objects) (taken : task.advance results jobId = some next) :
    next.Fits jobId objects := by
  rcases task with ⟨job, stage⟩
  have nothing (held : Connection × Result) (none : held ∈ (Option.none : Option (Connection × Result))) :
      { bucket := held.1.lakeBucket, key := resultKey jobId, content := held.2.content } ∈ objects := by cases none
  simp only [Task.advance] at taken
  cases stage with
  | queued =>
      cases taken
      exact ⟨rfl, fits.error, fits.uri, Or.inl rfl, Or.inl rfl, nothing⟩
  | choosing =>
      cases results with
      | some rc =>
          cases taken
          exact ⟨fits.status, fits.error, fits.uri, Or.inl rfl, Or.inl rfl, nothing⟩
      | none =>
          cases taken
          exact ⟨fits.status, fits.error, fits.uri, Or.inl rfl, Or.inl rfl, nothing⟩
  | executing rc => cases taken
  | counting rc result =>
      cases taken
      exact ⟨fits.status, fits.error, fits.uri, Or.inr rfl, Or.inl rfl, fits.uploaded⟩
  | measuring rc result =>
      cases taken
      exact ⟨fits.status, fits.error, fits.uri, fits.rows, Or.inr rfl, fits.uploaded⟩
  | locating rc result =>
      cases taken
      exact ⟨fits.status, fits.error, rfl, fits.rows, fits.bytes, fits.uploaded⟩
  | closing rc result =>
      cases taken
      exact ⟨rfl, fits.error, fits.uri, fits.rows, fits.bytes, fits.uploaded⟩
  | stored rc result => cases taken
  | raised error =>
      cases taken
      exact ⟨rfl, fits.error, fits.uri, Or.inl rfl, Or.inl rfl, nothing⟩
  | excusing error =>
      cases taken
      exact ⟨fits.status, rfl, fits.uri, Or.inl rfl, Or.inl rfl, nothing⟩
  | failed error => cases taken

theorem Task.Fits.act (fits : task.Fits jobId objects) (taken : task.act results jobId move = some next) :
    next.Fits jobId (objects ++ task.uploads jobId move) := by
  cases move with
  | advance => exact (fits.advance taken).more
  | store result =>
      rcases task with ⟨job, stage⟩
      simp only [Task.act] at taken
      split at taken
      · rename_i rc executing
        cases executing
        cases taken
        refine ⟨fits.status, fits.error, fits.uri, Or.inl rfl, Or.inl rfl, fun held found => ?_⟩
        cases found
        exact List.mem_append_right objects (List.mem_singleton.mpr rfl)
      · cases taken
  | raise error =>
      rcases task with ⟨job, stage⟩
      cases stage with
      | choosing | executing | counting | measuring =>
          cases taken
          exact ⟨fits.status, fits.error, fits.uri, Or.inl rfl, Or.inl rfl, fun _ none => by cases none⟩
      | _ => cases taken

/-- A stage that is left is not an end, and the next one comes after it. -/
theorem Stage.reaches_of_act (taken : task.act results jobId move = some next) :
    task.stage.status.Reaches next.stage.status ∧ task.stage.status ≠ .succeeded ∧ task.stage.error = none := by
  rcases task with ⟨job, stage⟩
  cases move with
  | advance =>
      simp only [Task.act, Task.advance] at taken
      cases stage with
      | queued =>
          cases taken
          exact ⟨Or.inr (Or.inl rfl), Status.noConfusion, rfl⟩
      | choosing =>
          cases results with
          | some rc =>
              cases taken
              exact ⟨Status.Reaches.refl _, Status.noConfusion, rfl⟩
          | none =>
              cases taken
              exact ⟨Status.Reaches.refl _, Status.noConfusion, rfl⟩
      | executing | stored | failed => cases taken
      | excusing error =>
          cases taken
          exact ⟨Status.Reaches.refl _, Status.noConfusion, rfl⟩
      | counting | measuring | locating | closing | raised =>
          cases taken
          exact ⟨Or.inr (Or.inr ⟨rfl, Status.noConfusion⟩), Status.noConfusion, rfl⟩
  | store result =>
      simp only [Task.act] at taken
      split at taken
      · rename_i rc executing
        cases executing
        cases taken
        exact ⟨Status.Reaches.refl _, Status.noConfusion, rfl⟩
      · cases taken
  | raise error =>
      cases stage with
      | choosing | executing | counting | measuring =>
          cases taken
          exact ⟨Status.Reaches.refl _, Status.noConfusion, rfl⟩
      | _ => cases taken

theorem Task.Fits.moves (fits : task.Fits jobId objects) (taken : task.act results jobId move = some next) :
    task.Moves next := by
  have staged := Stage.reaches_of_act taken
  have after := fits.act taken
  refine ⟨?_, ?_, fits.error.trans staged.2.2⟩
  · rw [fits.status, after.status]
    exact staged.1
  · rw [fits.status]
    exact staged.2.1

def Attribute.position : Attribute -> Nat
  | .status => 0
  | .rows => 1
  | .bytesScanned => 2
  | .error => 3
  | .again => 4
  | .uri => 5
  | .sign => 6

/-- What is read before the answer is complete.  Only an answer that says
`SUCCEEDED` promises anything of the other attributes, since those were set before.
-/
structure Known (task : Task) (next : Attribute) (answer : QueryStatus) : Prop where
  status : answer.status.Reaches task.job.status
  rows : answer.status = .succeeded -> 1 < next.position -> answer.rows = task.job.rows
  bytes : answer.status = .succeeded -> 2 < next.position -> answer.bytesScanned = task.job.bytesScanned
  error : forall error, answer.error = some error -> task.job.error = some error
  again : 4 < next.position -> task.job.status = .succeeded
  unsigned : answer.resultSignedUrl = none

/-- What an answer says.  It is about the job as it is now, which may have moved on
since it was read. -/
structure Told (task : Task) (answer : QueryStatus) : Prop where
  status : answer.status.Reaches task.job.status
  whole : answer.status = .succeeded -> answer.rows = task.job.rows ∧
    answer.bytesScanned = task.job.bytesScanned ∧ answer.resultSignedUrl ≠ none
  error : forall error, answer.error = some error -> task.job.error = some error
  signed : forall url, answer.resultSignedUrl = some url -> task.job.status = .succeeded ∧
    Exists fun conn : Connection => Exists fun uri : String => task.job.resultS3Uri = some uri ∧ url = sign conn uri

variable {field : Attribute} {answer : QueryStatus}

theorem known_unread (task : Task) : Known task .status (unread jobId) where
  status := Or.inr (Or.inl rfl)
  rows := fun succeeded _ => by cases succeeded
  bytes := fun succeeded _ => by cases succeeded
  error := fun _ none => by cases none
  again := fun late => absurd late (by decide)
  unsigned := rfl

/-- A job that has succeeded does not move. -/
theorem Task.Moves.not_succeeded {status : Status} (moves : task.Moves next)
    (reaches : status.Reaches task.job.status) :
    status ≠ .succeeded := by
  rintro rfl
  exact moves.unfinished reaches.of_succeeded

theorem Known.later (known : Known task field answer) (moves : task.Moves next) : Known next field answer where
  status := known.status.trans moves.forward
  rows := fun succeeded => absurd succeeded (moves.not_succeeded known.status)
  bytes := fun succeeded => absurd succeeded (moves.not_succeeded known.status)
  error := fun error read => by cases moves.unexcused.symm.trans (known.error error read)
  again := fun late => absurd (known.again late) moves.unfinished
  unsigned := known.unsigned

theorem Told.later (told : Told task answer) (moves : task.Moves next) : Told next answer where
  status := told.status.trans moves.forward
  whole := fun succeeded => absurd succeeded (moves.not_succeeded told.status)
  error := fun error read => by cases moves.unexcused.symm.trans (told.error error read)
  signed := fun url signed => absurd (told.signed url signed).1 moves.unfinished

/-- What is known of a request by how far it has come. -/
def State.Allows (state : State) : Poll -> Prop
  | .reading next answer => Exists fun task : Task => state.tasks answer.jobId = some task ∧ Known task next answer
  | .answered answer => Exists fun task : Task => state.tasks answer.jobId = some task ∧ Told task answer
  | .rejected _ => True

/-- An answer without a URL does not say that the job has succeeded. -/
theorem Known.told (known : Known task field answer) (unfinished : task.job.status ≠ .succeeded) :
    Told task answer where
  status := known.status
  whole := fun succeeded => by
    have reached := known.status
    rw [succeeded] at reached
    exact absurd reached.of_succeeded unfinished
  error := known.error
  signed := fun url signed => by cases known.unsigned.symm.trans signed

/-- One more attribute is read. -/
theorem Known.read {state : State} (known : Known task field answer)
    (found : state.tasks answer.jobId = some task) (fits : task.Fits answer.jobId objects)
    (results : Option Connection) : state.Allows (read results task.job answer field) := by
  cases field with
  | status =>
      exact ⟨task, found, Status.Reaches.refl _, fun _ late => absurd late (by decide),
        fun _ late => absurd late (by decide), known.error, fun late => absurd late (by decide), known.unsigned⟩
  | rows =>
      exact ⟨task, found, known.status, fun _ _ => rfl, fun _ late => absurd late (by decide), known.error,
        fun late => absurd late (by decide), known.unsigned⟩
  | bytesScanned =>
      exact ⟨task, found, known.status, fun succeeded _ => known.rows succeeded (by decide),
        fun _ _ => rfl, known.error,
        fun late => absurd late (by decide), known.unsigned⟩
  | error =>
      exact ⟨task, found, known.status, fun succeeded _ => known.rows succeeded (by decide),
        fun succeeded _ => known.bytes succeeded (by decide), fun _ read => read, fun late => absurd late (by decide),
        known.unsigned⟩
  | again =>
      simp only [QueryJobs.read]
      split
      · rename_i succeeded
        exact ⟨task, found, known.status, fun said _ => known.rows said (by decide),
          fun said _ => known.bytes said (by decide), known.error, fun _ => succeeded, known.unsigned⟩
      · rename_i unfinished
        exact ⟨task, found, known.told unfinished⟩
  | uri =>
      have succeeded := known.again (by decide)
      have stored := fits.status.symm.trans succeeded
      simp only [QueryJobs.read]
      split
      · exact ⟨task, found, known.status, fun said _ => known.rows said (by decide),
          fun said _ => known.bytes said (by decide), known.error, fun _ => succeeded, known.unsigned⟩
      · rename_i blank
        rw [fits.uri] at blank
        cases reached : task.stage with
        | stored rc result =>
            rw [reached] at blank
            exact absurd (congrArg Option.isSome (QueryResults.nonblank_resultUri rc answer.jobId)) blank
        | _ => rw [reached] at stored; cases stored
  | sign =>
      have succeeded := known.again (by decide)
      simp only [QueryJobs.read]
      cases located : task.job.resultS3Uri with
      | none => trivial
      | some uri =>
          cases results with
          | none => trivial
          | some conn =>
              exact ⟨task, found, known.status,
                fun said => ⟨known.rows said (by decide), known.bytes said (by decide),
                Option.some_ne_none _⟩, known.error, fun url signed => ⟨succeeded, conn, uri, located,
                  (Option.some.inj signed).symm⟩⟩

/-- The invariant: every job fits its stage, and every request has read nothing that
the job contradicts. -/
structure Consistent (state : State) : Prop where
  tasks : forall jobId task, state.tasks jobId = some task -> task.Fits jobId state.objects
  polls : forall poll status, state.polls poll = some status -> state.Allows status

variable {state after : State} {event : Event}

theorem consistent_fresh (connections : List Connection) (objects : List S3Object) :
    Consistent (State.fresh connections objects) where
  tasks := fun _ _ none => by cases none
  polls := fun _ _ none => by cases none

/-- Everything a step can do, with its guards.  The invariant is kept by cases on
it. -/
inductive Effect (state : State) : Event -> State -> Prop
  | edit {connections : List Connection} : Effect state (.edit connections) { state with connections := connections }
  | submit {jobId sql sub : String} (absent : state.tasks jobId = none) :
      Effect state (.submit jobId sql sub) (state.setTask jobId (submitted sql sub))
  | act {jobId : String} {move : Act} {task next : Task} (found : state.tasks jobId = some task)
      (acted : task.act state.resultsConnection jobId move = some next) :
      Effect state (.act jobId move) ((state.upload (task.uploads jobId move)).setTask jobId next)
  | ask {poll : Nat} {jobId sub : String} :
      Effect state (.ask poll jobId sub) (state.setPoll poll (state.ask jobId sub))
  | read {poll : Nat} {field : Attribute} {answer : QueryStatus} {task : Task}
      (reading : state.polls poll = some (.reading field answer)) (found : state.tasks answer.jobId = some task) :
      Effect state (.read poll) (state.setPoll poll (QueryJobs.read state.resultsConnection task.job answer field))

theorem effect_of_step (taken : step state event = some after) : Effect state event after := by
  cases event with
  | edit connections =>
      cases taken
      exact Effect.edit
  | submit jobId sql sub =>
      simp only [step] at taken
      split at taken
      · cases taken
      · rename_i absent
        cases taken
        exact Effect.submit absent
  | act jobId move =>
      simp only [step] at taken
      rcases Option.bind_eq_some_iff.mp taken with ⟨task, found, moved⟩
      rcases Option.map_eq_some_iff.mp moved with ⟨next, acted, rfl⟩
      exact Effect.act found acted
  | ask poll jobId sub =>
      simp only [step] at taken
      split at taken
      · cases taken
      · cases taken
        exact Effect.ask
  | read poll =>
      simp only [step] at taken
      split at taken
      · rename_i field answer reading
        rcases Option.map_eq_some_iff.mp taken with ⟨task, found, rfl⟩
        exact Effect.read reading found
      · cases taken

/-- A job stays what it is, or its thread takes one step. -/
theorem task_of_step (consistent : Consistent state) (taken : step state event = some after)
    (found : state.tasks jobId = some task) :
    Exists fun next : Task => after.tasks jobId = some next ∧ (next = task ∨ task.Moves next) := by
  cases effect_of_step taken with
  | @submit submittedId sql sub absent =>
      have different : jobId ≠ submittedId := by
        rintro rfl
        cases absent.symm.trans found
      exact ⟨task, (Function.update_of_ne different _ _).trans found, Or.inl rfl⟩
  | @act actingId move acting next own acted =>
      by_cases same : jobId = actingId
      · subst same
        cases found.symm.trans own
        exact ⟨next, Function.update_self _ _ _, Or.inr ((consistent.tasks jobId task found).moves acted)⟩
      · exact ⟨task, (Function.update_of_ne same _ _).trans found, Or.inl rfl⟩
  | _ => exact ⟨task, found, Or.inl rfl⟩

theorem State.Allows.later {status : Poll} (consistent : Consistent state) (taken : step state event = some after)
    (allowed : state.Allows status) : after.Allows status := by
  cases status with
  | reading field answer =>
      rcases allowed with ⟨task, found, known⟩
      rcases task_of_step consistent taken found with ⟨next, kept, rfl | moves⟩
      · exact ⟨next, kept, known⟩
      · exact ⟨next, kept, known.later moves⟩
  | answered answer =>
      rcases allowed with ⟨task, found, told⟩
      rcases task_of_step consistent taken found with ⟨next, kept, rfl | moves⟩
      · exact ⟨next, kept, told⟩
      · exact ⟨next, kept, told.later moves⟩
  | rejected rejection => trivial

theorem allows_ask (sub : String) : state.Allows (state.ask jobId sub) := by
  unfold State.ask
  split
  · trivial
  · rename_i task found
    split
    · trivial
    · exact ⟨task, found, known_unread task⟩

theorem Consistent.preserved (consistent : Consistent state) (taken : step state event = some after) :
    Consistent after := by
  have polls (poll : Nat) (status : Poll) (held : state.polls poll = some status) : after.Allows status :=
    (consistent.polls poll status held).later consistent taken
  cases effect_of_step taken with
  | edit => exact ⟨consistent.tasks, polls⟩
  | @submit submittedId sql sub absent =>
      refine ⟨fun jobId task found => ?_, polls⟩
      rcases Memo.update_eq_some found with before | ⟨rfl, rfl⟩
      · exact consistent.tasks jobId task before
      · exact fits_submitted sql sub
  | @act actingId move acting next own acted =>
      refine ⟨fun jobId task found => ?_, polls⟩
      rcases Memo.update_eq_some found with before | ⟨rfl, rfl⟩
      · exact (consistent.tasks jobId task before).more
      · exact (consistent.tasks jobId acting own).act acted
  | ask =>
      refine ⟨consistent.tasks, fun poll status found => ?_⟩
      rcases Memo.update_eq_some found with before | ⟨_, rfl⟩
      · exact polls poll status before
      · exact allows_ask _
  | @read asked field answer task reading own =>
      refine ⟨consistent.tasks, fun poll status found => ?_⟩
      rcases Memo.update_eq_some found with before | ⟨_, rfl⟩
      · exact polls poll status before
      · rcases consistent.polls asked _ reading with ⟨same, known, told⟩
        cases own.symm.trans known
        exact told.read own (consistent.tasks answer.jobId task own) state.resultsConnection

theorem consistent_of_run {connections : List Connection} {objects : List S3Object} {events : List Event}
    (reached : run step (State.fresh connections objects) events = some state) : Consistent state :=
  run_invariant_always (fun _ _ _ holds taken => Consistent.preserved holds taken)
    (consistent_fresh connections objects) reached

/-! ## What an answer can say -/

theorem Task.Fits.stored (fits : task.Fits jobId objects) (succeeded : task.job.status = .succeeded) :
    Exists fun rc : Connection => Exists fun result : Result => task.stage = .stored rc result ∧
      task.job.rows = some result.rows ∧ task.job.bytesScanned = some result.bytes ∧ task.job.error = none ∧
      task.job.resultS3Uri = some (resultUri rc jobId) ∧
      { bucket := rc.lakeBucket, key := resultKey jobId, content := result.content } ∈ objects := by
  rcases task with ⟨job, stage⟩
  have status := fits.status.symm.trans succeeded
  cases stage with
  | stored rc result =>
      have rows := fits.rows.resolve_left (Option.some_ne_none _)
      have bytes := fits.bytes.resolve_left (Option.some_ne_none _)
      exact ⟨rc, result, rfl, rows, bytes, fits.error, fits.uri, fits.uploaded (rc, result) rfl⟩
  | _ => cases status

/-- However the steps interleave: an answer that says `SUCCEEDED` has the size of
the uploaded result and a URL; a URL is for the uploaded result, whatever the status
beside it; and an error is never told beside a URL or `SUCCEEDED`. -/
theorem answers_coherent (connections : List Connection) (objects : List S3Object) (events : List Event)
    (state : State) (poll : Nat) (answer : QueryStatus)
    (reached : run step (State.fresh connections objects) events = some state)
    (answered : state.polls poll = some (.answered answer)) :
    (answer.status = .succeeded ∨ answer.resultSignedUrl ≠ none ->
      Exists fun rc : Connection => Exists fun result : Result => Exists fun conn : Connection =>
        answer.error = none ∧ answer.resultSignedUrl = some (sign conn (resultUri rc answer.jobId)) ∧
        { bucket := rc.lakeBucket, key := resultKey answer.jobId, content := result.content } ∈ state.objects ∧
        (answer.status = .succeeded -> answer.rows = some result.rows ∧ answer.bytesScanned = some result.bytes)) ∧
      (forall error, answer.error = some error -> Exists fun raised : String => Exists fun task : Task =>
        state.tasks answer.jobId = some task ∧ task.stage = .failed raised ∧ error = cut raised) := by
  have consistent := consistent_of_run reached
  rcases consistent.polls poll _ answered with ⟨task, found, told⟩
  have fits := consistent.tasks answer.jobId task found
  constructor
  · intro either
    have signed : answer.resultSignedUrl ≠ none := either.elim (fun said => (told.whole said).2.2) id
    rcases Option.ne_none_iff_exists'.mp signed with ⟨url, given⟩
    rcases told.signed url given with ⟨succeeded, conn, uri, located, rfl⟩
    rcases fits.stored succeeded with ⟨rc, result, _, rows, bytes, error, same, uploaded⟩
    cases located.symm.trans same
    refine ⟨rc, result, conn, ?_, given, uploaded, fun said => ?_⟩
    · refine Option.eq_none_iff_forall_ne_some.mpr (fun read said => ?_)
      cases error.symm.trans (told.error read said)
    · rcases told.whole said with ⟨sameRows, sameBytes, _⟩
      exact ⟨sameRows.trans rows, sameBytes.trans bytes⟩
  · intro error said
    have reason := fits.error.symm.trans (told.error error said)
    cases stage : task.stage with
    | failed raised =>
        rw [stage] at reason
        exact ⟨raised, task, found, stage, (Option.some.inj reason).symm⟩
    | _ => rw [stage] at reason; cases reason

def salesLake : Connection :=
  { id := 1, name := "sales", enabled := true, sourceDsn := "", awsAccessKey := none, awsSecretKey := none
    awsRegion := "eu-west-1", lakeBucket := "lake", icebergNamespace := "sales", syncInclude := "", syncExclude := ""
    syncObjectTypes := "TABLE", syncSchemaBlacklist := "" }

def twoRows : Result :=
  { content := "PAR1", rows := 2, bytes := 4 }

/-- A request reads the status and the rows before the job finishes, and the rest
after that. -/
def tornRead : List Event :=
  [.submit "q1" "select 1" "ada", .act "q1" .advance, .act "q1" .advance, .act "q1" (.store twoRows),
    .ask 0 "q1" "ada", .read 0, .read 0,
    .act "q1" .advance, .act "q1" .advance, .act "q1" .advance, .act "q1" .advance,
    .read 0, .read 0, .read 0, .read 0, .read 0]

/-- It is told that the job is running, without its rows, and where the result is. -/
theorem running_beside_url : Exists fun state : State => Exists fun answer : QueryStatus =>
    run step (State.fresh [salesLake] []) tornRead = some state ∧ state.polls 0 = some (.answered answer) ∧
      answer.status = .running ∧ answer.rows = none ∧ answer.bytesScanned = some 4 ∧ answer.error = none ∧
      Exists fun conn : Connection => Exists fun rc : Connection =>
        answer.resultSignedUrl = some (sign conn (resultUri rc "q1")) := by
  have finished : (run step (State.fresh [salesLake] []) tornRead).isSome = true := rfl
  have reached := (Option.some_get finished).symm
  have told := answers_coherent [salesLake] [] tornRead _ 0 _ reached rfl
  rcases told.1 (Or.inr (Option.some_ne_none _)) with ⟨rc, result, conn, error, signed, _, _⟩
  exact ⟨_, _, reached, rfl, rfl, rfl, rfl, error, conn, rc, signed⟩

/-- What a request tells, or has read so far, is not from before the status.  A
request that has read nothing yet follows whatever was there. -/
def Follows (status : Status) (jobId : String) : Poll -> Prop
  | .reading field answer => answer.jobId = jobId -> field = .status ∨ status.Reaches answer.status
  | .answered answer => answer.jobId = jobId -> status.Reaches answer.status
  | .rejected _ => True

/-- The job had the status before the request was made.  It is kept by every step,
as a job does not go back. -/
structure Past (status : Status) (jobId : String) (later : Nat) (state : State) : Prop where
  consistent : Consistent state
  reached : Exists fun task : Task => state.tasks jobId = some task ∧ status.Reaches task.job.status
  follows : forall found, state.polls later = some found -> Follows status jobId found

theorem follows_read {status : Status} (before : Follows status jobId (.reading field answer))
    (now : answer.jobId = jobId -> status.Reaches task.job.status) (results : Option Connection) :
    Follows status jobId (read results task.job answer field) := by
  have kept (begun : field ≠ .status) (own : answer.jobId = jobId) : status.Reaches answer.status :=
    (before own).resolve_left begun
  cases field with
  | status => exact fun own => Or.inr (now own)
  | rows | bytesScanned | error => exact fun own => Or.inr (kept Attribute.noConfusion own)
  | again =>
      simp only [read]
      split
      · exact fun own => Or.inr (kept Attribute.noConfusion own)
      · exact kept Attribute.noConfusion
  | uri =>
      simp only [read]
      split
      · exact fun own => Or.inr (kept Attribute.noConfusion own)
      · exact kept Attribute.noConfusion
  | sign =>
      simp only [read]
      split
      · trivial
      · trivial
      · exact kept Attribute.noConfusion

theorem follows_ask {status : Status} (askedId sub : String) : Follows status jobId (state.ask askedId sub) := by
  unfold State.ask
  split
  · trivial
  · split
    · trivial
    · exact fun _ => Or.inl rfl

theorem Past.preserved {status : Status} {later : Nat} (past : Past status jobId later state)
    (taken : step state event = some after) : Past status jobId later after := by
  rcases past.reached with ⟨task, found, reaches⟩
  have reached : Exists fun next : Task => after.tasks jobId = some next ∧ status.Reaches next.job.status := by
    rcases task_of_step past.consistent taken found with ⟨next, kept, rfl | moves⟩
    · exact ⟨next, kept, reaches⟩
    · exact ⟨next, kept, reaches.trans moves.forward⟩
  refine ⟨past.consistent.preserved taken, reached, fun status held => ?_⟩
  cases effect_of_step taken with
  | ask =>
      rcases Memo.update_eq_some held with before | ⟨_, rfl⟩
      · exact past.follows status before
      · exact follows_ask _ _
  | @read asked field answer acting reading own =>
      rcases Memo.update_eq_some held with before | ⟨rfl, rfl⟩
      · exact past.follows status before
      · refine follows_read (past.follows _ reading) (fun same => ?_) state.resultsConnection
        rw [same] at own
        cases own.symm.trans found
        exact reaches
  | _ => exact past.follows status held

theorem allows_of_run {status : Poll} {events : List Event} (consistent : Consistent state)
    (allowed : state.Allows status) (reached : run step state events = some after) : after.Allows status := by
  have passed (current : State) (event : Event) (next : State) (holds : Consistent current ∧ current.Allows status)
      (taken : step current event = some next) : Consistent next ∧ next.Allows status :=
    ⟨holds.1.preserved taken, holds.2.later holds.1 taken⟩
  have start : Consistent state ∧ state.Allows status := ⟨consistent, allowed⟩
  exact (run_invariant_always passed start reached).2

/-- A request made after an answer is never told an earlier status; after
`SUCCEEDED` it is told the same. -/
theorem answers_forward (connections : List Connection) (objects : List S3Object) (first second : List Event)
    (middle last : State) (poll later : Nat) (answer next : QueryStatus)
    (reached : run step (State.fresh connections objects) first = some middle)
    (answered : middle.polls poll = some (.answered answer)) (unasked : middle.polls later = none)
    (rest : run step middle second = some last) (again : last.polls later = some (.answered next))
    (same : next.jobId = answer.jobId) :
    answer.status.Reaches next.status ∧ (answer.status = .succeeded ->
      next.rows = answer.rows ∧ next.bytesScanned = answer.bytesScanned) := by
  have consistent := consistent_of_run reached
  rcases consistent.polls poll _ answered with ⟨task, found, told⟩
  have start : Past answer.status answer.jobId later middle :=
    ⟨consistent, ⟨task, found, told.status⟩, fun _ held => by cases unasked.symm.trans held⟩
  have past : Past answer.status answer.jobId later last :=
    run_invariant_always (fun _ _ _ holds taken => Past.preserved holds taken) start rest
  have onward := past.follows _ again same
  refine ⟨onward, fun succeeded => ?_⟩
  have allowed : last.Allows (.answered answer) := allows_of_run consistent (consistent.polls poll _ answered) rest
  rcases allowed with ⟨current, kept, still⟩
  rcases past.consistent.polls later _ again with ⟨own, held, toldNext⟩
  rw [same] at held
  cases held.symm.trans kept
  rw [succeeded] at onward
  have whole := still.whole succeeded
  have wholeNext := toldNext.whole onward.of_succeeded
  exact ⟨wholeNext.1.trans whole.1.symm, wholeNext.2.1.trans whole.2.1.symm⟩

/-- The next request is told that it has succeeded. -/
theorem then_succeeded : Exists fun last : State => Exists fun next : QueryStatus =>
    run step (State.fresh [salesLake] []) (tornRead ++ [.ask 1 "q1" "ada",
        .read 1, .read 1, .read 1, .read 1, .read 1,
      .read 1, .read 1]) = some last ∧ last.polls 1 = some (.answered next) ∧
      Status.running.Reaches next.status ∧ next.rows = some 2 := by
  have finished : (run step (State.fresh [salesLake] []) tornRead).isSome = true := rfl
  have reached := (Option.some_get finished).symm
  have continued : (run step ((run step (State.fresh [salesLake] []) tornRead).get finished)
      [.ask 1 "q1" "ada", .read 1, .read 1, .read 1, .read 1, .read 1, .read 1, .read 1]).isSome = true := rfl
  have rest := (Option.some_get continued).symm
  have forward := answers_forward [salesLake] [] tornRead _ _ _ 0 1 _ _ reached rfl rfl rest rfl rfl
  exact ⟨_, _, run_append_eq_some.mpr ⟨_, reached, rest⟩, rfl, forward.1, rfl⟩

end QueryJobs
end WarehouseSync

import WarehouseSync.Gateway.ReadEndpoints
import Mathlib.Data.Fintype.EquivFin

namespace WarehouseSync
namespace ScopedReads

open App Auth ConfigStore ReadEndpoints SqlGuard

/-!
# What a connection-scoped token sees

Two states that agree on everything of a connection, on the queries that the
principal submitted, and on the settings, which belong to no connection, may
differ in all the rest.  A request of a token of the connection is confined if
it is answered alike in both.  Three mechanisms keep requests confined: the
scope check, the schemas of the SQL guard, and the role check; most reading
endpoints have none of them.
-/

/-- The rows of the connection have a place in the database: what its constraints
rule out need not be answered alike. -/
structure Constrained (state : State) : Prop where
  idsOnce : (state.store.connections.map Connection.id).Nodup
  namesOnce : (state.store.connections.map Connection.name).Nodup
  namespacesOnce : (state.store.connections.map Connection.icebergNamespace).Nodup
  selectionOwned : forall row, row ∈ state.store.selection ->
    (state.store.getConnection row.connectionId).isSome = true
  runsOnce : (state.runs.map DagsterRun.runId).Nodup

/-- DuckDB ignores case in the names of schemas.  So two namespaces that differ in
case share their views. -/
def inSchema (icebergNamespace : String) (view : View) : Bool :=
  Schema.lower view.schema == Schema.lower icebergNamespace

/-- The views of the lake tables of a connection. -/
def ownViews (c : Int) (state : State) : List View :=
  match state.store.getConnection c with
  | none => []
  | some conn => state.views.filter (inSchema conn.icebergNamespace)

/-- The submitted query, if the principal is the one who submitted it. -/
def ownJob (principal : Principal) (state : State) (jobId : String) : Option Job :=
  (state.jobs jobId).filter (fun job => decide (job.principalSub = principal.sub))

/-- The states agree on what belongs to the connection or to the principal, and on
the settings.  Everything else may differ, and a confined request must not show it.
-/
structure Agree (principal : Principal) (c : Int) (state other : State) : Prop where
  record : other.store.getConnection c = state.store.getConnection c
  selection : other.store.getSelection c = state.store.getSelection c
  objects : other.sources c = state.sources c
  syncStatus : other.objectState.filter (fun row => decide (row.connectionId = c)) =
    state.objectState.filter (fun row => decide (row.connectionId = c))
  runs : other.runs.filter (fun run => decide (run.connectionTag = some c)) =
    state.runs.filter (fun run => decide (run.connectionTag = some c))
  tables : ownViews c other = ownViews c state
  jobs : forall jobId, ownJob principal other jobId = ownJob principal state jobId
  settings : other.store.settings = state.store.settings

/-- DuckDB answers the statement alike whatever the schemas of other connections
hold.  It is a condition on the library at one statement. -/
def Local (env : Outside) (c : Int) (state : State) (statement : Statement) (limit : Nat) : Prop :=
  forall views, ownViews c { state with views := views } = ownViews c state ->
    env.execute views statement limit = env.execute state.views statement limit

/-- The requests that are confined.  Whether one is can be told from the request,
the state and the principal, without another state to compare with. -/
def Confined (env : Outside) (principal : Principal) (c : Int) (state : State) : Read -> Prop
  | .health | .ready | .ui | .readSettings | .submitQuery _ => True
  | .connectionSyncStatus _ => True
  | .connectionObjects connectionId | .getSelection connectionId | .listRuns connectionId => connectionId = c
  | .getRun runId => Exists fun run : DagsterRun =>
      run ∈ state.runs ∧ run.runId = runId ∧ run.connectionTag = some c
  | .listTokens | .listUsers => principal.isAdmin = false
  | .runQuerySync sql limit => forall statement, prepareSql env principal state sql = .ok statement ->
      Local env c state statement limit
  | .queryStatus jobId => Exists fun job =>
      state.jobs jobId = some job ∧ job.principalSub = principal.sub ∧
        (job.status = "SUCCEEDED" -> nonblank job.resultS3Uri = none)
  | .listConnections | .listTables => False

/-- Every state that agrees answers the request in the same way.  So the answer
tells nothing of other connections. -/
def AnsweredAlike (env : Outside) (principal : Principal) (c : Int) (state : State) (read : Read) : Prop :=
  forall other, Constrained other -> Agree principal c state other ->
    respond env principal other read = respond env principal state read

variable {env : Outside} {principal : Principal} {c : Int} {state other : State}

theorem guardFor_congr (limited : principal.connectionId = some c) (agree : Agree principal c state other) :
    guardFor env principal other = guardFor env principal state := by
  unfold guardFor
  rw [agree.settings, limited]
  simp only
  rw [agree.record]

theorem prepareSql_of_limited (limited : principal.connectionId = some c) (state : State) (sql : String) :
    prepareSql env principal state sql = ((guardFor env principal state).guard (env.parseSql sql)).map .guarded := by
  unfold prepareSql
  rw [if_neg]
  rw [limited]
  rintro ⟨_, ⟨⟩, _⟩

theorem prepareSql_congr (limited : principal.connectionId = some c) (agree : Agree principal c state other)
    (sql : String) :
    prepareSql env principal other sql = prepareSql env principal state sql := by
  rw [prepareSql_of_limited limited, prepareSql_of_limited limited, guardFor_congr limited agree]

theorem connectionObjects_congr (agree : Agree principal c state other) :
    connectionObjects other c = connectionObjects state c := by
  unfold connectionObjects
  rw [agree.record, agree.objects]
  unfold Store.enabledFqns
  rw [agree.selection]

theorem getSelection_congr (agree : Agree principal c state other) : getSelection other c = getSelection state c := by
  unfold getSelection
  rw [agree.selection]

theorem listRuns_congr (agree : Agree principal c state other) : listRuns other c = listRuns state c := by
  unfold listRuns
  rw [agree.runs]

theorem connectionSyncStatus_congr (limited : principal.connectionId = some c) (agree : Agree principal c state other)
    (connectionId : Int) :
    respond env principal other (.connectionSyncStatus connectionId) =
      respond env principal state (.connectionSyncStatus connectionId) := by
  unfold respond enforceConnectionScope
  rw [limited]
  by_cases own : c = connectionId
  · subst own
    simp only [connectionSyncStatus]
    rw [agree.syncStatus]
  · simp only [if_neg own]
    rfl

theorem find_of_mem {runs : List DagsterRun} (once : (runs.map DagsterRun.runId).Nodup) {run : DagsterRun}
    (listed : run ∈ runs) : runs.find? (fun candidate => decide (candidate.runId = run.runId)) = some run := by
  cases found : runs.find? (fun candidate => decide (candidate.runId = run.runId)) with
  | none =>
      exact absurd (decide_eq_true rfl) (List.find?_eq_none.mp found run listed)
  | some candidate =>
      have matched := List.find?_some found
      have same : candidate.runId = run.runId := of_decide_eq_true matched
      rw [List.inj_on_of_nodup_map once (List.mem_of_find?_eq_some found) listed same]

/-- A run of the connection is the run with its id in both states. -/
theorem getRun_congr (formed : Constrained state) (constrained : Constrained other)
    (agree : Agree principal c state other) {run : DagsterRun} (member : run ∈ state.runs)
    (tagged : run.connectionTag = some c) : getRun other run.runId = getRun state run.runId := by
  have own : run ∈ other.runs.filter (fun run => decide (run.connectionTag = some c)) := by
    rw [agree.runs]
    exact List.mem_filter.mpr ⟨member, decide_eq_true tagged⟩
  unfold getRun
  rw [find_of_mem formed.runsOnce member, find_of_mem constrained.runsOnce (List.mem_filter.mp own).1]

/-- A query of the principal that has no result to download. -/
theorem queryStatus_congr (agree : Agree principal c state other) {jobId : String} {job : Job}
    (stored : state.jobs jobId = some job) (mine : job.principalSub = principal.sub)
    (unfinished : job.status = "SUCCEEDED" -> nonblank job.resultS3Uri = none) :
    queryStatus env principal other jobId = queryStatus env principal state jobId := by
  have same := agree.jobs jobId
  unfold ownJob at same
  have kept : (some job).filter (fun job => decide (job.principalSub = principal.sub)) = some job :=
    Option.filter_some_pos (by rw [mine, decide_eq_true rfl])
  rw [stored, kept] at same
  have found : other.jobs jobId = some job := (Option.filter_eq_some_iff.mp same).1
  have url (state : State) :
      (if job.status = "SUCCEEDED" then resultSignedUrl env state job else .ok none) = .ok none := by
    by_cases finished : job.status = "SUCCEEDED"
    · rw [if_pos finished]
      unfold resultSignedUrl
      rw [unfinished finished]
    · rw [if_neg finished]
  unfold queryStatus
  rw [found, stored]
  simp only [url]

/-- The schemas of other connections may hold what they hold in the other state. -/
theorem execute_congr (agree : Agree principal c state other) {statement : Statement} {limit : Nat}
    (within : Local env c state statement limit) :
    env.execute other.views statement limit = env.execute state.views statement limit := by
  apply within
  have tables := agree.tables
  unfold ownViews at tables ⊢
  rw [agree.record] at tables
  exact tables

theorem runQuerySync_congr (limited : principal.connectionId = some c) (agree : Agree principal c state other)
    {sql : String} {limit : Nat}
    (within : forall statement, prepareSql env principal state sql = .ok statement ->
      Local env c state statement limit) :
    runQuerySync env principal other sql limit = runQuerySync env principal state sql limit := by
  unfold runQuerySync
  rw [prepareSql_congr limited agree]
  cases prepared : prepareSql env principal state sql with
  | error message => rfl
  | ok statement =>
      simp only
      rw [execute_congr agree (within statement prepared)]

theorem answeredAlike_of_confined (limited : principal.connectionId = some c) (formed : Constrained state)
    {read : Read} (confined : Confined env principal c state read) :
    AnsweredAlike env principal c state read := by
  intro other constrained agree
  cases read with
  | health | ready | ui => rfl
  | listConnections | listTables => exact confined.elim
  | connectionObjects connectionId =>
      cases confined
      exact connectionObjects_congr agree
  | getSelection connectionId =>
      cases confined
      exact congrArg Except.ok (getSelection_congr agree)
  | readSettings =>
      unfold respond readSettings
      rw [agree.settings]
  | listTokens | listUsers =>
      unfold respond requireAdmin
      rw [confined]
      rfl
  | connectionSyncStatus connectionId => exact connectionSyncStatus_congr limited agree connectionId
  | listRuns connectionId =>
      cases confined
      exact congrArg Except.ok (listRuns_congr agree)
  | getRun runId =>
      rcases confined with ⟨run, member, rfl, tagged⟩
      exact congrArg Except.ok (getRun_congr formed constrained agree member tagged)
  | runQuerySync sql limit => exact runQuerySync_congr limited agree confined
  | submitQuery sql =>
      show submitQuery env principal other sql = submitQuery env principal state sql
      unfold submitQuery
      rw [prepareSql_congr limited agree]
  | queryStatus jobId =>
      rcases confined with ⟨job, stored, mine, unfinished⟩
      exact queryStatus_congr agree stored mine unfinished

/-! ## Queries that read what they name -/

/-- The view is what the table node names. -/
def named (table : Option String × String) (view : View) : Bool :=
  match table.1 with
  | none => false
  | some db => inSchema db view && Schema.lower view.name == Schema.lower table.2

/-- DuckDB reads no views but those that the statement names.  With it, a statement
that the guard lets through is local. -/
def ReadsItsTables (env : Outside) (stmt : Node) (limit : Nat) : Prop :=
  forall first second : List View,
    (forall table, table ∈ stmt.tables -> first.filter (named table) = second.filter (named table)) ->
    env.execute first (.guarded stmt) limit = env.execute second (.guarded stmt) limit

theorem governed_tables (cfg : GuardConfig) (stmt : Node) : (cfg.governed stmt).tables = stmt.tables := by
  have withLimit_tables (number : Int) : (stmt.withLimit number).tables = stmt.tables := by
    rcases stmt with ⟨kind, args⟩
    unfold Node.tables Node.withLimit
    simp [Node.walk, Args.walk, Node.kind, Node.args, tableOf, List.filterMap_cons]
  unfold GuardConfig.governed
  split
  · cases cfg.defaultRowLimit with
    | none => rfl
    | some number =>
        simp only
        split
        · rfl
        · exact withLimit_tables number
  · rfl

/-- A statement that the guard returns names only tables in the schemas it allows. -/
theorem guard_tables {cfg : GuardConfig} {parsed : Except String (List (Option Node))} {out : Node}
    (accepted : cfg.guard parsed = .ok out) : forall table, table ∈ out.tables -> cfg.Allows table := by
  unfold GuardConfig.guard at accepted
  cases parsed with
  | error message => cases accepted
  | ok statements =>
      simp only at accepted
      split at accepted
      · rcases guardStatement_eq_ok.mp accepted with ⟨passes, rfl⟩
        rw [governed_tables]
        exact passes.tables
      · cases accepted

/-- The only schema for a token of the connection is its own. -/
theorem filter_ownViews_of_allowed (limited : principal.connectionId = some c) {table : Option String × String}
    (allowed : (guardFor env principal state).Allows table) (views : List View) :
    views.filter (named table) = (ownViews c { state with views := views }).filter (named table) := by
  rcases allowed with ⟨db, qualified, listed⟩
  unfold guardFor at listed
  rw [limited] at listed
  simp only at listed
  unfold ownViews
  cases found : state.store.getConnection c with
  | none => simp [found] at listed
  | some conn =>
      simp only [found] at listed ⊢
      split at listed
      · cases listed
      · cases List.mem_singleton.mp listed
        rw [List.filter_filter]
        apply List.filter_congr
        intro view _
        unfold named
        rw [qualified]
        simp only
        cases inSchema conn.icebergNamespace view with
        | false => rfl
        | true => simp

/-- With the guard in front, a query that reads what it names is confined. -/
theorem query_confined (limited : principal.connectionId = some c) {sql : String} {limit : Nat}
    (reads : forall stmt, prepareSql env principal state sql = .ok (.guarded stmt) ->
      ReadsItsTables env stmt limit) :
    Confined env principal c state (.runQuerySync sql limit) := by
  intro statement prepared views tables
  rw [prepareSql_of_limited limited] at prepared
  cases accepted : (guardFor env principal state).guard (env.parseSql sql) with
  | error message =>
      rw [accepted] at prepared
      cases prepared
  | ok stmt =>
      rw [accepted] at prepared
      cases prepared
      apply reads stmt
      · rw [prepareSql_of_limited limited, accepted]
        rfl
      · intro table listed
        have allowed := guard_tables accepted table listed
        rw [filter_ownViews_of_allowed limited allowed views, tables, <- filter_ownViews_of_allowed limited allowed]

/-- What the connection has of the store and of the runs, and nothing else of them.
It agrees with the state it is taken from. -/
def own (c : Int) (state : State) : State :=
  { state with
    store := { state.store with
      connections := state.store.connections.filter (fun conn => decide (conn.id = c))
      selection := state.store.getSelection c }
    runs := state.runs.filter (fun run => decide (run.connectionTag = some c)) }

/-- A connection and its selection in front of what connection `c` has.  States of
this kind show that a request is not confined. -/
def beside (c : Int) (state : State) (conn : Connection) (rows : List SelectionRow) : State :=
  { own c state with
    store := { (own c state).store with
      connections := conn :: (own c state).store.connections
      selection := rows ++ (own c state).store.selection } }

/-- A run in front of those of connection `c`. -/
def besideRun (c : Int) (state : State) (run : DagsterRun) : State :=
  { own c state with runs := run :: (own c state).runs }

theorem getConnection_own (c : Int) (state : State) :
    (own c state).store.getConnection c = state.store.getConnection c := by
  unfold own Store.getConnection
  rw [List.find?_filter]
  congr
  funext conn
  simp only [and_self, Bool.decide_eq_true]

theorem getSelection_own (c : Int) (state : State) :
    (own c state).store.getSelection c = state.store.getSelection c := by
  unfold own Store.getSelection
  rw [List.filter_filter]
  simp only [Bool.and_self]

theorem ownViews_congr {first second : State} (record : second.store.getConnection c = first.store.getConnection c)
    (views : second.views = first.views) : ownViews c second = ownViews c first := by
  unfold ownViews
  rw [record, views]

theorem agree_own (principal : Principal) (c : Int) (state : State) : Agree principal c state (own c state) where
  record := getConnection_own c state
  selection := getSelection_own c state
  objects := rfl
  syncStatus := rfl
  runs := by
    unfold own
    rw [List.filter_filter]
    simp only [Bool.and_self]
  tables := ownViews_congr (getConnection_own c state) rfl
  jobs _ := rfl
  settings := rfl

theorem own_constrained (formed : Constrained state) : Constrained (own c state) where
  idsOnce := formed.idsOnce.sublist (List.filter_sublist.map Connection.id)
  namesOnce := formed.namesOnce.sublist (List.filter_sublist.map Connection.name)
  namespacesOnce := formed.namespacesOnce.sublist (List.filter_sublist.map Connection.icebergNamespace)
  selectionOwned row listed := by
    have member := List.mem_filter.mp listed
    rw [of_decide_eq_true member.2, getConnection_own, <- of_decide_eq_true member.2]
    exact formed.selectionOwned row member.1
  runsOnce := formed.runsOnce.sublist (List.filter_sublist.map DagsterRun.runId)

theorem getConnection_beside {conn : Connection} (elsewhere : conn.id ≠ c) (rows : List SelectionRow) :
    (beside c state conn rows).store.getConnection c = state.store.getConnection c := by
  rw [<- getConnection_own c state]
  unfold beside Store.getConnection
  rw [List.find?_cons_of_neg (by rw [decide_eq_true_iff]; exact elsewhere)]

theorem getSelection_beside {conn : Connection} (elsewhere : conn.id ≠ c) {rows : List SelectionRow}
    (owned : forall row, row ∈ rows -> row.connectionId = conn.id) :
    (beside c state conn rows).store.getSelection c = state.store.getSelection c := by
  rw [<- getSelection_own c state]
  unfold beside Store.getSelection
  rw [List.filter_append, List.filter_eq_nil_iff.mpr, List.nil_append]
  intro row listed
  rw [decide_eq_true_iff, owned row listed]
  exact elsewhere

theorem agree_beside (principal : Principal) {conn : Connection} (elsewhere : conn.id ≠ c) {rows : List SelectionRow}
    (owned : forall row, row ∈ rows -> row.connectionId = conn.id) :
    Agree principal c state (beside c state conn rows) where
  record := getConnection_beside elsewhere rows
  selection := getSelection_beside elsewhere owned
  objects := rfl
  syncStatus := rfl
  runs := (agree_own principal c state).runs
  tables := ownViews_congr (getConnection_beside elsewhere rows) rfl
  jobs _ := rfl
  settings := rfl

theorem agree_besideRun (principal : Principal) {run : DagsterRun} (elsewhere : run.connectionTag ≠ some c) :
    Agree principal c state (besideRun c state run) :=
  { agree_own principal c state with
    runs := by
      rw [<- (agree_own principal c state).runs]
      unfold besideRun
      rw [List.filter_cons_of_neg (by rw [decide_eq_true_iff]; exact elsewhere)] }

theorem besideRun_constrained (formed : Constrained state) {run : DagsterRun}
    (fresh : run.runId ∉ (own c state).runs.map DagsterRun.runId) : Constrained (besideRun c state run) :=
  { own_constrained formed with runsOnce := List.nodup_cons.mpr ⟨fresh, (own_constrained formed).runsOnce⟩ }

/-- An enabled connection with the name as its namespace too. -/
def fresh (id : Int) (name accessKey : String) : Connection :=
  { id := id, name := name, enabled := true, sourceDsn := "", awsAccessKey := some accessKey
    awsSecretKey := some "secret", awsRegion := "", lakeBucket := "", icebergNamespace := name
    syncInclude := "", syncExclude := "", syncObjectTypes := "", syncSchemaBlacklist := "" }

theorem beside_constrained (formed : Constrained state) {conn : Connection} (elsewhere : conn.id ≠ c)
    (newName : conn.name ∉ (own c state).store.connections.map Connection.name)
    (newNamespace : conn.icebergNamespace ∉ (own c state).store.connections.map Connection.icebergNamespace)
    {rows : List SelectionRow} (owned : forall row, row ∈ rows -> row.connectionId = conn.id) :
    Constrained (beside c state conn rows) where
  idsOnce := by
    apply List.nodup_cons.mpr
    refine ⟨?_, (own_constrained formed).idsOnce⟩
    intro listed
    rcases List.mem_map.mp listed with ⟨kept, member, same⟩
    apply elsewhere
    rw [<- same]
    exact of_decide_eq_true (List.mem_filter.mp member).2
  namesOnce := List.nodup_cons.mpr ⟨newName, (own_constrained formed).namesOnce⟩
  namespacesOnce := List.nodup_cons.mpr ⟨newNamespace, (own_constrained formed).namespacesOnce⟩
  selectionOwned row listed := by
    unfold beside Store.getConnection
    rw [List.find?_isSome]
    cases List.mem_append.mp listed with
    | inl added => exact ⟨conn, List.mem_cons_self, decide_eq_true (owned row added).symm⟩
    | inr kept =>
        rcases List.find?_isSome.mp ((own_constrained formed).selectionOwned row kept) with ⟨owner, member, same⟩
        exact ⟨owner, List.mem_cons_of_mem conn member, same⟩
  runsOnce := (own_constrained formed).runsOnce

/-- Any other id may be that of an enabled connection with any access key. -/
theorem exists_beside (principal : Principal) (formed : Constrained state) {id : Int} (elsewhere : id ≠ c)
    (accessKey : String) {rows : List SelectionRow} (owned : forall row, row ∈ rows -> row.connectionId = id) :
    Exists fun name =>
      Constrained (beside c state (fresh id name accessKey) rows) ∧
        Agree principal c state (beside c state (fresh id name accessKey) rows) := by
  let taken := (own c state).store.connections.map Connection.name ++
    (own c state).store.connections.map Connection.icebergNamespace
  rcases Infinite.exists_notMem_finset taken.toFinset with ⟨name, new⟩
  rw [List.mem_toFinset, List.mem_append, not_or] at new
  exact ⟨name, beside_constrained formed elsewhere new.1 new.2 owned, agree_beside principal elsewhere owned⟩

/-! ## Requests that are not confined -/

/-- Two states that agree with the first and differ in an answer. -/
theorem AnsweredAlike.same {read : Read} (alike : AnsweredAlike env principal c state read) {first second : State}
    (firstFormed : Constrained first) (firstAgrees : Agree principal c state first)
    (secondFormed : Constrained second) (secondAgrees : Agree principal c state second) :
    respond env principal first read = respond env principal second read := by
  rw [alike first firstFormed firstAgrees, alike second secondFormed secondAgrees]

theorem not_alike_listConnections (formed : Constrained state) :
    ¬ AnsweredAlike env principal c state .listConnections := by
  intro alike
  rcases @exists_beside c state principal formed (c + 1) (by omega) "" [] (by simp) with ⟨name, placed, agrees⟩
  have same := alike.same placed agrees (own_constrained formed) (agree_own principal c state)
  injection same with answer
  injection answer with shown
  have longer := congrArg List.length shown
  simp [beside] at longer

theorem not_alike_listTables (formed : Constrained state) :
    ¬ AnsweredAlike env principal c state .listTables := by
  intro alike
  rcases @exists_beside c state principal formed (c + 1) (by omega) "" [] (by simp) with ⟨name, placed, agrees⟩
  have same := alike.same placed agrees (own_constrained formed) (agree_own principal c state)
  injection same with answer
  injection answer with shown
  have longer := congrArg List.length shown
  simp [beside, fresh, enabledConnections] at longer

/-- The answer tells whether there is a connection with the id. -/
theorem own_of_alike_connectionObjects (formed : Constrained state) {connectionId : Int}
    (alike : AnsweredAlike env principal c state (.connectionObjects connectionId)) : connectionId = c := by
  by_contra elsewhere
  rcases @exists_beside c state principal formed connectionId elsewhere "" [] (by simp) with
    ⟨name, placed, agrees⟩
  have same := alike.same placed agrees (own_constrained formed) (agree_own principal c state)
  have absent : (own c state).store.getConnection connectionId = none := by
    apply List.find?_eq_none.mpr
    intro conn listed
    have kept : conn.id = c := of_decide_eq_true (List.mem_filter.mp listed).2
    rw [decide_eq_true_iff, kept]
    exact fun same => elsewhere same.symm
  have present : (beside c state (fresh connectionId name "") []).store.getConnection connectionId =
      some (fresh connectionId name "") := List.find?_cons_of_pos (decide_eq_true rfl)
  simp only [respond, connectionObjects, absent, present] at same
  cases found : (beside c state (fresh connectionId name "") []).sources connectionId with
  | error message => simp [found] at same
  | ok objects => simp [found] at same

theorem own_of_alike_getSelection (formed : Constrained state) {connectionId : Int}
    (alike : AnsweredAlike env principal c state (.getSelection connectionId)) : connectionId = c := by
  by_contra elsewhere
  let row : SelectionRow := ⟨connectionId, "", "", "", true⟩
  rcases @exists_beside c state principal formed connectionId elsewhere "" [row] (by simp [row]) with
    ⟨name, placed, agrees⟩
  have same := alike.same placed agrees (own_constrained formed) (agree_own principal c state)
  injection same with answer
  injection answer with shown
  have longer := congrArg List.length shown
  simp [beside, Store.getSelection, row] at longer

theorem own_of_alike_listRuns (formed : Constrained state) {connectionId : Int}
    (alike : AnsweredAlike env principal c state (.listRuns connectionId)) : connectionId = c := by
  by_contra elsewhere
  rcases Infinite.exists_notMem_finset ((own c state).runs.map DagsterRun.runId).toFinset with ⟨runId, new⟩
  rw [List.mem_toFinset] at new
  let run : DagsterRun := ⟨runId, "", "", none, none, some connectionId, none, none⟩
  have untagged : run.connectionTag ≠ some c := fun same => elsewhere (Option.some.inj same)
  have same := alike.same (@besideRun_constrained c state formed run new) (agree_besideRun principal untagged)
    (own_constrained formed) (agree_own principal c state)
  have none : (own c state).runs.filter (fun run => decide (run.connectionTag = some connectionId)) = [] := by
    apply List.filter_eq_nil_iff.mpr
    intro run listed
    have kept : run.connectionTag = some c := of_decide_eq_true (List.mem_filter.mp listed).2
    rw [decide_eq_true_iff, kept]
    exact fun same => elsewhere (Option.some.inj same).symm
  injection same with answer
  injection answer with shown
  have longer := congrArg List.length shown
  simp [besideRun, run, none] at longer

/-- The answer tells whether there is a run with the id. -/
theorem own_of_alike_getRun (formed : Constrained state) {runId : String}
    (alike : AnsweredAlike env principal c state (.getRun runId)) :
    Exists fun run : DagsterRun => run ∈ state.runs ∧ run.runId = runId ∧ run.connectionTag = some c := by
  by_contra elsewhere
  have new : runId ∉ (own c state).runs.map DagsterRun.runId := by
    intro listed
    rcases List.mem_map.mp listed with ⟨run, member, same⟩
    have kept := List.mem_filter.mp member
    exact elsewhere ⟨run, kept.1, same, of_decide_eq_true kept.2⟩
  let run : DagsterRun := ⟨runId, "", "", none, none, none, none, none⟩
  have same := alike.same (@besideRun_constrained c state formed run new)
    (agree_besideRun principal (Option.some_ne_none c).symm) (own_constrained formed) (agree_own principal c state)
  have absent : (own c state).runs.find? (fun run => decide (run.runId = runId)) = none := by
    apply List.find?_eq_none.mpr
    intro run listed
    rw [decide_eq_true_iff]
    exact fun same => new (List.mem_map.mpr ⟨run, listed, same⟩)
  have present : (besideRun c state run).runs.find? (fun run => decide (run.runId = runId)) = some run :=
    List.find?_cons_of_pos (decide_eq_true rfl)
  injection same with answer
  unfold getRun at answer
  rw [absent, present] at answer
  injection answer with found
  cases found

theorem viewer_of_alike_listTokens (formed : Constrained state)
    (alike : AnsweredAlike env principal c state .listTokens) : principal.isAdmin = false := by
  by_contra admin
  rw [Bool.not_eq_false] at admin
  let row : ApiToken := ⟨0, "", "", 0, "", "", "", false⟩
  let other : State := { state with store := { state.store with tokens := row :: state.store.tokens } }
  have constrained : Constrained other := { formed with selectionOwned := formed.selectionOwned }
  have agrees : Agree principal c state other :=
    ⟨rfl, rfl, rfl, rfl, rfl, rfl, fun _ => rfl, rfl⟩
  have same := alike other constrained agrees
  simp only [respond, requireAdmin, admin] at same
  injection same with answer
  injection answer with shown
  have longer := congrArg List.length shown
  simp [other] at longer

theorem viewer_of_alike_listUsers (formed : Constrained state)
    (alike : AnsweredAlike env principal c state .listUsers) : principal.isAdmin = false := by
  by_contra admin
  rw [Bool.not_eq_false] at admin
  let withUsers (users : String -> Option User) : State := { state with store := { state.store with users := users } }
  have constrained (users : String -> Option User) : Constrained (withUsers users) :=
    { formed with selectionOwned := formed.selectionOwned }
  have agrees (users : String -> Option User) : Agree principal c state (withUsers users) :=
    ⟨rfl, rfl, rfl, rfl, rfl, rfl, fun _ => rfl, rfl⟩
  have same := alike.same (constrained (fun _ => none)) (agrees (fun _ => none))
    (constrained (fun _ => some ⟨"viewer", true⟩)) (agrees (fun _ => some ⟨"viewer", true⟩))
  simp only [respond, requireAdmin, admin] at same
  injection same with answer
  injection answer with users
  cases congrFun users ""

/-- The answer shows what DuckDB answers, or its error. -/
theorem local_of_alike_runQuerySync (formed : Constrained state) (limited : principal.connectionId = some c)
    {sql : String} {limit : Nat} (alike : AnsweredAlike env principal c state (.runQuerySync sql limit))
    {statement : Statement} (prepared : prepareSql env principal state sql = .ok statement) :
    Local env c state statement limit := by
  intro views tables
  let other : State := { state with views := views }
  have constrained : Constrained other := { formed with selectionOwned := formed.selectionOwned }
  have agrees : Agree principal c state other :=
    ⟨rfl, rfl, rfl, rfl, rfl, tables, fun _ => rfl, rfl⟩
  have same := alike other constrained agrees
  simp only [respond, runQuerySync] at same
  rw [prepareSql_congr limited agrees, prepared] at same
  simp only [other] at same
  cases ran : env.execute state.views statement limit with
  | error message =>
      cases ranOther : env.execute views statement limit with
      | error messageOther =>
          rw [ran, ranOther] at same
          injection same with rejection
          injection rejection with status detail
          rw [detail]
      | ok result =>
          rw [ran, ranOther] at same
          cases same
  | ok result =>
      cases ranOther : env.execute views statement limit with
      | error messageOther =>
          rw [ran, ranOther] at same
          cases same
      | ok resultOther =>
          rw [ran, ranOther] at same
          injection same with answer
          injection answer with shown
          rw [shown]

/-- botocore puts the access key into the URL that it signs with it.  Only by this
does a URL tell whose client has signed it. -/
def SignsWithKey (env : Outside) : Prop :=
  forall (conn other : Connection) (uri : String),
    (nonblank conn.awsAccessKey).isSome = true -> (nonblank conn.awsSecretKey).isSome = true ->
    (nonblank other.awsAccessKey).isSome = true -> (nonblank other.awsSecretKey).isSome = true ->
    env.presignedUrl conn uri = env.presignedUrl other uri -> conn.awsAccessKey = other.awsAccessKey

/-- The answer tells whether someone else submitted a query with the id. -/
theorem mine_of_alike_queryStatus (formed : Constrained state) {jobId : String}
    (alike : AnsweredAlike env principal c state (.queryStatus jobId)) :
    Exists fun job => state.jobs jobId = some job ∧ job.principalSub = principal.sub := by
  cases mine : ownJob principal state jobId with
  | some job =>
      have stored := Option.filter_eq_some_iff.mp mine
      exact ⟨job, stored.1, of_decide_eq_true stored.2⟩
  | none =>
      exfalso
      let withJob (job : Option Job) : State := { state with jobs := Function.update state.jobs jobId job }
      have constrained (job : Option Job) : Constrained (withJob job) :=
        { formed with selectionOwned := formed.selectionOwned }
      have agrees (job : Option Job)
          (others : job.filter (fun job => decide (job.principalSub = principal.sub)) = none) :
          Agree principal c state (withJob job) := by
        refine ⟨rfl, rfl, rfl, rfl, rfl, rfl, fun asked => ?_, rfl⟩
        by_cases same : asked = jobId
        · subst same
          rw [mine]
          simp only [ownJob, withJob, Function.update_self]
          exact others
        · simp only [ownJob, withJob, Function.update_of_ne same]
      let job : Job := ⟨"", principal.sub ++ "'", "PENDING", none, none, none, none⟩
      have others : job.principalSub ≠ principal.sub := by
        intro same
        have longer := congrArg String.length same
        simp [job] at longer
      have same := alike.same (constrained none) (agrees none rfl) (constrained (some job))
        (agrees (some job) (by simp [Option.filter, others]))
      simp [respond, queryStatus, withJob, others] at same

/-- The URL of a result is signed by whichever connection is the first. -/
theorem unfinished_of_alike_queryStatus (signs : SignsWithKey env) (formed : Constrained state)
    {jobId : String} (alike : AnsweredAlike env principal c state (.queryStatus jobId)) {job : Job}
    (stored : state.jobs jobId = some job) (mine : job.principalSub = principal.sub)
    (finished : job.status = "SUCCEEDED") : nonblank job.resultS3Uri = none := by
  by_contra downloadable
  rcases Option.ne_none_iff_exists'.mp downloadable with ⟨uri, isUri⟩
  rcases @exists_beside c state principal formed (c + 1) (by omega) "first" [] (by simp) with
    ⟨firstName, firstPlaced, firstAgrees⟩
  rcases @exists_beside c state principal formed (c + 1) (by omega) "second" [] (by simp) with
    ⟨secondName, secondPlaced, secondAgrees⟩
  have same := alike.same firstPlaced firstAgrees secondPlaced secondAgrees
  have answer (name accessKey : String) :
      queryStatus env principal (beside c state (fresh (c + 1) name accessKey) []) jobId =
        .ok (.job job.status job.rows job.bytesScanned job.error
          (some (env.presignedUrl (fresh (c + 1) name accessKey) uri))) := by
    have found : (beside c state (fresh (c + 1) name accessKey) []).jobs jobId = some job := stored
    unfold queryStatus
    rw [found]
    simp only
    rw [if_neg (not_not_intro mine), if_pos finished]
    unfold resultSignedUrl
    rw [isUri]
    rfl
  simp only [respond, answer] at same
  injection same with shown
  injection shown with _ _ _ _ signed
  have sameKey : some "first" = some "second" := signs _ _ uri rfl rfl rfl rfl (Option.some.inj signed)
  exact absurd sameKey (by decide)

theorem confined_of_answeredAlike (limited : principal.connectionId = some c) (signs : SignsWithKey env)
    (formed : Constrained state) {read : Read} (alike : AnsweredAlike env principal c state read) :
    Confined env principal c state read := by
  cases read with
  | health | ready | ui | readSettings => trivial
  | submitQuery sql => trivial
  | connectionSyncStatus connectionId => trivial
  | listConnections => exact not_alike_listConnections formed alike
  | listTables => exact not_alike_listTables formed alike
  | connectionObjects connectionId => exact own_of_alike_connectionObjects formed alike
  | getSelection connectionId => exact own_of_alike_getSelection formed alike
  | listRuns connectionId => exact own_of_alike_listRuns formed alike
  | getRun runId => exact own_of_alike_getRun formed alike
  | listTokens => exact viewer_of_alike_listTokens formed alike
  | listUsers => exact viewer_of_alike_listUsers formed alike
  | runQuerySync sql limit =>
      intro statement prepared
      exact local_of_alike_runQuerySync formed limited alike prepared
  | queryStatus jobId =>
      rcases mine_of_alike_queryStatus formed alike with ⟨job, stored, mine⟩
      exact ⟨job, stored, mine, unfinished_of_alike_queryStatus signs formed alike stored mine⟩

/-- The requests of a token that are answered alike in all states that agree on its
connection.  Lists of connections and of tables are not among them, because they are
not filtered by the scope. -/
theorem scoped_reads_confined_iff (env : Outside) (principal : Principal) (c : Int) (state : State) (read : Read)
    (limited : principal.connectionId = some c) (signs : SignsWithKey env) (formed : Constrained state) :
    AnsweredAlike env principal c state read ↔ Confined env principal c state read :=
  ⟨confined_of_answeredAlike limited signs formed, answeredAlike_of_confined limited formed⟩

/-- The URLs that botocore signs, without their other parameters. -/
def sampleOutside : Outside where
  parseDsn _ := ⟨"db", 5432, "app", "app", "", "require"⟩
  parseSql _ := .ok []
  shownSetting settings key := (settings key).getD ""
  querySettings _ := ⟨[], some 1000, some 1000, false⟩
  execute _ _ _ := .ok ⟨[], [], []⟩
  presignedUrl conn uri := uri ++ "?X-Amz-Credential=" ++ conn.awsAccessKey.getD ""

theorem sampleOutside_signs : SignsWithKey sampleOutside := by
  intro conn other uri signer _ otherSigner _ same
  have keys : conn.awsAccessKey.getD "" = other.awsAccessKey.getD "" := String.append_right_inj _ |>.mp same
  cases key : conn.awsAccessKey with
  | none => simp [key, nonblank] at signer
  | some text =>
      cases otherKey : other.awsAccessKey with
      | none => simp [otherKey, nonblank] at otherSigner
      | some otherText =>
          rw [key, otherKey] at keys
          exact congrArg some keys

/-- The principal of a token of the first connection. -/
def firstToken : Principal :=
  { sub := "token:7", roles := ["viewer"], email := "ana@shop.example", connectionId := some 1
    raw := .tokenId 7 }

def shopConnection (id : Int) (name : String) : Connection :=
  { id := id, name := name, enabled := true, sourceDsn := "postgresql://app@db/app", awsAccessKey := none
    awsSecretKey := none, awsRegion := "us-east-1", lakeBucket := name, icebergNamespace := name
    syncInclude := "", syncExclude := "", syncObjectTypes := "", syncSchemaBlacklist := "" }

/-- Connection 1, and what there is of connection 2. -/
def shops (others : List Connection) (rows : List SelectionRow) : State where
  store :=
    { connections := shopConnection 1 "shop" :: others, nextConnectionId := 3, selection := rows
      watermarks := [], chunkState := [], tokens := [], nextTokenId := 8, users := fun _ => none
      settings := fun _ => none, catalog := [], objects := [], runs := [], nextRunId := 0 }
  objectState := []
  sources _ := .ok []
  runs := []
  views := []
  jobs _ := none

/-- Nothing of connection 2, or its record and a selected table of its. -/
def firstOnly : State :=
  shops [] []

def bothShops : State :=
  shops [shopConnection 2 "payroll"] [⟨2, "public", "salaries", "table", true⟩]

theorem firstOnly_constrained : Constrained firstOnly := by
  refine ⟨by decide, by decide, by decide, ?_, by decide⟩
  intro row listed
  cases listed

theorem bothShops_constrained : Constrained bothShops := by
  refine ⟨by decide, by decide, by decide, ?_, by decide⟩
  intro row listed
  cases List.mem_singleton.mp listed
  rfl

theorem shops_agree : Agree firstToken 1 firstOnly bothShops :=
  ⟨rfl, rfl, rfl, rfl, rfl, rfl, fun _ => rfl, rfl⟩

/-- The token of the first connection reads the selection of the second. -/
theorem scoped_token_reads_other_selection :
    firstToken.connectionId = some 1 ∧ Constrained firstOnly ∧ Constrained bothShops ∧
      Agree firstToken 1 firstOnly bothShops ∧
      respond sampleOutside firstToken firstOnly (.getSelection 2) = .ok (.selection []) ∧
      respond sampleOutside firstToken bothShops (.getSelection 2) =
        .ok (.selection [("public", "salaries", "table", true)]) ∧
      respond sampleOutside firstToken bothShops .listConnections ≠
        respond sampleOutside firstToken firstOnly .listConnections := by
  refine ⟨rfl, firstOnly_constrained, bothShops_constrained, shops_agree, rfl, rfl, ?_⟩
  intro same
  injection same with answer
  injection answer with shown
  cases congrArg List.length shown

theorem scoped_token_sync_status_confined :
    AnsweredAlike sampleOutside firstToken 1 bothShops (.connectionSyncStatus 2) ∧
      ¬ AnsweredAlike sampleOutside firstToken 1 bothShops (.getSelection 2) := by
  have confined := fun read => scoped_reads_confined_iff sampleOutside firstToken 1 bothShops read rfl
    sampleOutside_signs bothShops_constrained
  refine ⟨(confined _).mpr trivial, fun alike => ?_⟩
  have own : (2 : Int) = 1 := (confined _).mp alike
  cases own

end ScopedReads
end WarehouseSync

import WarehouseSync.Gateway.RowLimits
import WarehouseSync.Gateway.ScopedReads

namespace WarehouseSync
namespace TruncatedAnswers

open Auth ReadEndpoints SqlGuard
open ScopedReads (firstToken firstOnly)

/-!
# The truncated flag of a query result (`run_query_sync`)

Two limits cut a guarded query.  The guard writes one into the statement, and
the endpoint fetches no more rows than the request asks for.  The flag compares
the number of rows it got with the second limit only, so it takes a result that
just fits for a truncated one, and does not see what the first limit cut off.
-/

/-- DuckDB runs the statement over the views, and `fetchmany` returns the first rows
of what there is. -/
def Fetches (env : Outside) (lake : List View -> Database) : Prop :=
  forall views stmt limit result, env.execute views (.guarded stmt) limit = .ok result ->
    result.rows.length = min ((lake views).rows stmt) limit

/-- The only statement of a query. -/
def onlyStatement : Except String (List (Option Node)) -> Option Node
  | .error _ => none
  | .ok statements =>
      match statements.filterMap (fun stmt => stmt) with
      | [stmt] => some stmt
      | _ => none

/-- The admin who may run everything is not guarded.  Everyone else's statement is,
and may get a limit from the guard. -/
def Guarded (env : Outside) (principal : Principal) (state : State) : Prop :=
  ¬ (principal.isAdmin = true ∧ principal.connectionId = none ∧
    (env.querySettings state.store.settings).adminUnrestricted = true)

/-- The limit that the guard adds to the statement, if it adds one.  The answer does
not say that there was one. -/
def addedLimit (cfg : GuardConfig) (stmt : Node) : Option Nat :=
  if stmt.kind = .select ∧ stmt.args.limit = none ∧ unlimited cfg.defaultRowLimit = false then
    cfg.defaultRowLimit.map Int.toNat
  else none

/-- The flag says whether the query has more rows than the answer.  The query is the
statement as it was sent, without a limit that the guard has added. -/
def FlagExact (db : Database) (stmt : Node) (result : QueryResult) (truncated : Bool) : Prop :=
  truncated = true ↔ result.rows.length < db.rows stmt

/-- An added limit below the requested one cuts nothing off, and otherwise the query
does not have just as many rows as requested.  In that case the answer is full
without anything missing. -/
def Fits (added : Option Nat) (limit rows : Nat) : Prop :=
  match added with
  | some number => if number < limit then rows ≤ number else rows ≠ limit
  | none => rows ≠ limit

variable {db : Database} {cfg : GuardConfig} {stmt : Node}

theorem rows_governed (db : Database) (cfg : GuardConfig) (stmt : Node) :
    db.rows (cfg.governed stmt) =
      match addedLimit cfg stmt with
      | some number => min (db.rows stmt) number
      | none => db.rows stmt := by
  unfold GuardConfig.governed addedLimit
  by_cases free : stmt.kind = .select ∧ stmt.args.limit = none
  · rw [if_pos free]
    cases default : cfg.defaultRowLimit with
    | none => simp [unlimited]
    | some number =>
        simp only
        cases without : unlimited (some number) with
        | true => simp
        | false =>
            have atLeast : 0 ≤ number := not_lt.mp (of_decide_eq_false without)
            simpa [free.1, free.2] using SqlGuard.rows_withLimit_eq db atLeast free.2
  · rw [if_neg free, if_neg (fun all => free ⟨all.1, all.2.1⟩)]

/-- What the flag says about the fetched rows, for either order of the limits. -/
theorem flag_iff (added : Option Nat) (limit rows : Nat) :
    (limit ≤ min (match added with | some number => min rows number | none => rows) limit ↔
      min (match added with | some number => min rows number | none => rows) limit < rows) ↔
        Fits added limit rows := by
  cases added with
  | none =>
      simp only [Fits]
      omega
  | some number =>
      simp only [Fits]
      by_cases below : number < limit
      · rw [if_pos below]
        omega
      · rw [if_neg below]
        omega

/-! ## The flag of an answer -/

/-- What the guard accepts is one statement, with its limit governed. -/
theorem governed_of_guard {parsed : Except String (List (Option Node))} {out : Node}
    (accepted : cfg.guard parsed = .ok out) :
    Exists fun stmt : Node => onlyStatement parsed = some stmt ∧ out = cfg.governed stmt := by
  cases parsed with
  | error message => cases accepted
  | ok statements =>
      simp only [GuardConfig.guard] at accepted
      simp only [onlyStatement]
      cases single : statements.filterMap (fun stmt => stmt) with
      | nil =>
          rw [single] at accepted
          cases accepted
      | cons stmt rest =>
          rw [single] at accepted
          cases rest with
          | nil => exact ⟨stmt, rfl, (guardStatement_eq_ok.mp accepted).2⟩
          | cons second rest => cases accepted

theorem prepared_guarded {env : Outside} {principal : Principal} {state : State} {sql : String}
    {statement : Statement} (guarded : Guarded env principal state)
    (prepared : prepareSql env principal state sql = .ok statement) :
    Exists fun stmt : Node => onlyStatement (env.parseSql sql) = some stmt ∧
      statement = .guarded ((guardFor env principal state).governed stmt) := by
  unfold prepareSql at prepared
  rw [if_neg guarded] at prepared
  cases accepted : (guardFor env principal state).guard (env.parseSql sql) with
  | error message =>
      rw [accepted] at prepared
      cases prepared
  | ok out =>
      rw [accepted] at prepared
      cases prepared
      rcases governed_of_guard accepted with ⟨stmt, only, rfl⟩
      exact ⟨stmt, only, rfl⟩

/-- The flag of a guarded query is right exactly if an added limit below the
requested one cuts nothing off and the result does not just fit. -/
theorem truncated_exact_iff {env : Outside} {lake : List View -> Database} (fetches : Fetches env lake)
    {principal : Principal} {state : State} (guarded : Guarded env principal state) {sql : String}
    {limit rowCount : Nat} {result : QueryResult} {truncated statementOk : Bool}
    (answered : runQuerySync env principal state sql limit =
      .ok (.result result rowCount truncated statementOk)) :
    Exists fun stmt : Node => onlyStatement (env.parseSql sql) = some stmt ∧
      (FlagExact (lake state.views) stmt result truncated ↔
        Fits (addedLimit (guardFor env principal state) stmt) limit ((lake state.views).rows stmt)) := by
  unfold runQuerySync at answered
  cases prepared : prepareSql env principal state sql with
  | error message =>
      rw [prepared] at answered
      cases answered
  | ok statement =>
      rcases prepared_guarded guarded prepared with ⟨stmt, only, rfl⟩
      rw [prepared] at answered
      simp only at answered
      cases executed : env.execute state.views
          (.guarded ((guardFor env principal state).governed stmt)) limit with
      | error message =>
          rw [executed] at answered
          cases answered
      | ok fetched =>
          rw [executed] at answered
          cases answered
          have count := fetches _ _ _ _ executed
          rw [rows_governed] at count
          refine ⟨stmt, only, ?_⟩
          rw [FlagExact, decide_eq_true_eq, count]
          exact flag_iff _ limit _

/-- Every statement has this many rows. -/
def lakeOf (rows : Nat) : Database :=
  { largeDatabase with body := fun _ => rows }

/-- One query on a lake of so many rows, with this default limit. -/
def lakeOutside (rows : Nat) (defaultRowLimit : Int) : Outside where
  parseDsn _ := ⟨"db", 5432, "app", "app", "", "require"⟩
  parseSql _ := .ok [some selectAll]
  shownSetting settings key := (settings key).getD ""
  querySettings _ := ⟨["viamedia_lake"], some defaultRowLimit, some 1000000, false⟩
  execute _ statement limit :=
    match statement with
    | .raw _ => .error "not here"
    | .guarded stmt => .ok ⟨["id"], ["BIGINT"], List.replicate (min ((lakeOf rows).rows stmt) limit) ["1"]⟩
  presignedUrl _ uri := uri

theorem lakeOutside_fetches (rows : Nat) (defaultRowLimit : Int) :
    Fetches (lakeOutside rows defaultRowLimit) (fun _ => lakeOf rows) := by
  intro views stmt limit result executed
  cases executed
  exact List.length_replicate

def analyst : Principal :=
  { firstToken with sub := "ana", connectionId := none }

theorem analyst_guarded (rows : Nat) (defaultRowLimit : Int) :
    Guarded (lakeOutside rows defaultRowLimit) analyst firstOnly :=
  fun all => absurd all.1 (by decide)

/-- Both rows of a table with two rows are called truncated, and one row of it
is not if the default limit is one. -/
theorem truncated_flag_is_wrong :
    (runQuerySync (lakeOutside 2 1000) analyst firstOnly "SELECT * FROM viamedia_lake.public__events" 2 =
        .ok (.result ⟨["id"], ["BIGINT"], [["1"], ["1"]]⟩ 2 true false) ∧
      ¬ FlagExact (lakeOf 2) selectAll ⟨["id"], ["BIGINT"], [["1"], ["1"]]⟩ true) ∧
    (runQuerySync (lakeOutside 2 1) analyst firstOnly "SELECT * FROM viamedia_lake.public__events" 2 =
        .ok (.result ⟨["id"], ["BIGINT"], [["1"]]⟩ 1 false false) ∧
      ¬ FlagExact (lakeOf 2) selectAll ⟨["id"], ["BIGINT"], [["1"]]⟩ false) := by
  refine ⟨⟨?_, ?_⟩, ?_, ?_⟩
  · rfl
  · intro exactly
    exact absurd (exactly.mp rfl) (by decide)
  · rfl
  · intro exactly
    exact absurd (exactly.mpr (by decide)) (by decide)

/-- Two of three rows are rightly called truncated. -/
theorem truncated_exact_iff_more :
    Exists fun stmt : Node =>
      onlyStatement (.ok [some selectAll]) = some stmt ∧
      (FlagExact (lakeOf 3) stmt ⟨["id"], ["BIGINT"], [["1"], ["1"]]⟩ true ↔
        Fits (addedLimit (guardFor (lakeOutside 3 1000) analyst firstOnly) stmt) 2 ((lakeOf 3).rows stmt)) :=
  truncated_exact_iff (lakeOutside_fetches 3 1000) (analyst_guarded 3 1000)
    (rfl : runQuerySync (lakeOutside 3 1000) analyst firstOnly "SELECT * FROM viamedia_lake.public__events" 2 =
      .ok (.result ⟨["id"], ["BIGINT"], [["1"], ["1"]]⟩ 2 true false))

end TruncatedAnswers
end WarehouseSync

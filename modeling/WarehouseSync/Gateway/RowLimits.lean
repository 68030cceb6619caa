import WarehouseSync.Gateway.SqlGuard

namespace WarehouseSync
namespace SqlGuard

open DecimalText

/-!
# How many rows a guarded query can yield

A database gives every statement the rows it has without its own row limit, and
every limit clause a number.  The guard adds the default to a SELECT without a
limit and changes nothing else, so any other statement yields what it yielded
as written.  What the guard can promise is therefore not about one database, whose
tables may happen to be small, but about all that read limit clauses alike.
-/

def Args.withoutLimit : Args -> Args
  | .nil => .nil
  | .cons .limit _ rest => rest.withoutLimit
  | .cons arg node rest => .cons arg node rest.withoutLimit

/-- The statement without its own row limit. -/
def Node.withoutLimit (stmt : Node) : Node :=
  .mk stmt.kind stmt.args.withoutLimit

/-- How limit clauses are read.  A clause that is no literal comes to any number, or
to none; of literals nothing is assumed but that a number is read from its digits.
-/
structure LimitReading where
  literal : String -> Option Nat
  bound : Node -> Option Nat
  literal_intText : forall number : Nat, literal (String.ofList (intText number)) = some number

/-- What a database makes of statements: the rows each of them has when its own
limit is left out, and the reading of that limit.  It is otherwise arbitrary, as the
guard knows nothing of the data. -/
structure Database extends LimitReading where
  body : Node -> Nat

/-- The text of a limit clause whose expression is a literal. -/
def limitLiteral : Node -> Option String
  | .mk .limit (.cons _ (.mk (.literal text) _) _) => some text
  | _ => none

/-- The number a limit clause comes to. -/
def LimitReading.clauseBound (reading : LimitReading) (limit : Node) : Option Nat :=
  match limitLiteral limit with
  | some text => reading.literal text
  | none => reading.bound limit

/-- The number of rows a statement yields.  A limit that comes to no number bounds
nothing. -/
def Database.rows (db : Database) (stmt : Node) : Nat :=
  match stmt.args.limit.bind db.toLimitReading.clauseBound with
  | none => db.body stmt.withoutLimit
  | some bound => min (db.body stmt.withoutLimit) bound

/-- The greater of the two limits.  A statement may be bounded by either of them,
depending on whether it brings a limit. -/
def GuardConfig.greatestLimit (cfg : GuardConfig) : Int :=
  max (cfg.defaultRowLimit.getD 0) (cfg.maxRowLimit.getD 0)

/-- The limit of the statement is a literal above the maximum. -/
def LimitReading.LiteralAbove (reading : LimitReading) (cfg : GuardConfig) (stmt : Node) : Prop :=
  Exists fun number : Nat => (stmt.args.limit.bind limitLiteral).bind reading.literal = some number ∧
    cfg.maxRowLimit.getD 0 < number

/-- The statement brings a limit that is read as a number, a literal one up to the
maximum and any other up to the greater limit.  It is about the statement and the
configuration only. -/
def LimitReading.Within (reading : LimitReading) (cfg : GuardConfig) (stmt : Node) : Prop :=
  Exists fun limit : Node => Exists fun number : Nat => stmt.args.limit = some limit ∧
    reading.clauseBound limit = some number ∧ (number : Int) ≤ cfg.greatestLimit ∧
    ((limitLiteral limit).isSome = true -> (number : Int) ≤ cfg.maxRowLimit.getD 0)

/-- Guarded statements yield at most the greater limit, and literal limits above the
maximum are rejected.  Both are asked of what the guard returns. -/
structure Database.Bounded (db : Database) (cfg : GuardConfig) (stmt : Node) : Prop where
  rows : forall out, cfg.guard (.ok [some stmt]) = .ok out -> (db.rows out : Int) ≤ cfg.greatestLimit
  limit : db.toLimitReading.LiteralAbove cfg stmt -> forall out, cfg.guard (.ok [some stmt]) ≠ .ok out

variable {db : Database} {cfg : GuardConfig} {stmt : Node}

/-- An injected limit is a literal, and is read as the number it was written from. -/
theorem bound_withLimit (db : Database) (stmt : Node) {number : Int} (atLeast : 0 ≤ number) :
    (stmt.withLimit number).args.limit.bind db.toLimitReading.clauseBound = some number.toNat := by
  have read := db.literal_intText number.toNat
  rw [Int.toNat_of_nonneg atLeast] at read
  exact read

/-- Literals are read as Python reads them, and nothing else is a number. -/
def plainReading : LimitReading :=
  { literal := fun text => (PythonText.readInt text.toList).map Int.toNat
    bound := fun _ => none
    literal_intText := fun number => by
      rw [String.toList_ofList, PythonText.readInt_intText]
      rfl }

/-- A database with ten million rows for everything. -/
def largeDatabase : Database :=
  { plainReading with body := fun _ => 10000000 }

def limitConfig : GuardConfig :=
  { allowedSchemas := ["viamedia_lake"], defaultRowLimit := some 100000, maxRowLimit := some 1000000 }

/-- A table of an allowed schema. -/
def lakeTable : Node :=
  .mk (.table (some "viamedia_lake") "public__events") .nil

def selectAll : Node :=
  .mk .select (.cons .part lakeTable .nil)

theorem limitConfig_passes {stmt : Node} (query : isQuery stmt.kind = true)
    (reads : stmt.walk.filterMap writeOf = []) (tables : stmt.tables = [(some "viamedia_lake", "public__events")]) :
    limitConfig.Passes stmt := by
  refine ⟨query, List.filterMap_eq_nil_iff.mp reads, ?_⟩
  rw [tables]
  intro table member
  rw [List.mem_singleton.mp member]
  exact ⟨"viamedia_lake", rfl, by decide⟩

/-- The limit that the guard adds.  Only a SELECT without one gets it, and only if
the default is a limit at all. -/
def GuardConfig.addsLimit (cfg : GuardConfig) (stmt : Node) : Option Int :=
  if stmt.kind = .select ∧ stmt.args.limit = none ∧ unlimited cfg.defaultRowLimit = false then cfg.defaultRowLimit
  else none

theorem governed_eq (cfg : GuardConfig) (stmt : Node) :
    cfg.governed stmt = ((cfg.addsLimit stmt).map stmt.withLimit).getD stmt := by
  unfold GuardConfig.governed GuardConfig.addsLimit
  by_cases free : stmt.kind = .select ∧ stmt.args.limit = none
  · rw [if_pos free]
    cases cfg.defaultRowLimit with
    | none => simp
    | some number =>
        by_cases bounded : unlimited (some number) = true
        · simp [bounded]
        · simp [bounded, free.1, free.2]
  · rw [if_neg free, if_neg (fun all => free ⟨all.1, all.2.1⟩)]
    rfl

theorem addsLimit_withLimit (cfg : GuardConfig) (stmt : Node) (number : Int) :
    cfg.addsLimit (stmt.withLimit number) = none :=
  if_neg (fun all => by cases all.2.1)

theorem walk_withLimit (stmt : Node) (number : Int) : (stmt.withLimit number).walk =
    stmt.kind :: .limit :: .literal (String.ofList (intText number)) :: stmt.args.walk := by
  unfold Node.withLimit
  simp [Node.walk, Args.walk]

theorem walk_eq (stmt : Node) : stmt.walk = stmt.kind :: stmt.args.walk := by
  cases stmt
  simp [Node.walk, Node.kind, Node.args]

theorem tables_withLimit (stmt : Node) (number : Int) : (stmt.withLimit number).tables = stmt.tables := by
  unfold Node.tables
  rw [walk_withLimit, walk_eq]
  simp [List.filterMap_cons, tableOf]

/-- An added limit neither writes nor reads. -/
theorem GuardConfig.Passes.withLimit (passes : cfg.Passes stmt) (number : Int) :
    cfg.Passes (stmt.withLimit number) where
  query := passes.query
  reads := by
    intro kind member
    have before := passes.reads kind
    rw [walk_eq] at before
    rw [walk_withLimit] at member
    rcases List.mem_cons.mp member with rfl | rest
    · exact before List.mem_cons_self
    · rcases List.mem_cons.mp rest with rfl | rest
      · rfl
      · rcases List.mem_cons.mp rest with rfl | rest
        · rfl
        · exact before (List.mem_cons_of_mem _ rest)
  tables := by
    rw [tables_withLimit]
    exact passes.tables

/-- The rows of a statement that had no limit, with one. -/
theorem rows_withLimit_eq (db : Database) {number : Int} (atLeast : 0 ≤ number) (free : stmt.args.limit = none) :
    db.rows (stmt.withLimit number) = min (db.rows stmt) number.toNat := by
  unfold Database.rows
  rw [bound_withLimit db stmt atLeast, free]
  rfl

/-- A guarded statement passes the guard unchanged.  It reads the tables of the
one statement that was sent, it is that statement but for a limit, and in every
database it has the rows of that statement, or as many of them as the limit
that was added allows. -/
theorem guard_preserves (cfg : GuardConfig) (parsed : Except String (List (Option Node))) (out : Node)
    (accepted : cfg.guard parsed = .ok out) :
    cfg.guard (.ok [some out]) = .ok out ∧
      Exists fun statements : List (Option Node) => Exists fun stmt : Node =>
        parsed = .ok statements ∧ statements.filterMap (fun entry => entry) = [stmt] ∧
        out.tables = stmt.tables ∧ out.withoutLimit = stmt.withoutLimit ∧
        forall db : Database, db.rows out =
          ((cfg.addsLimit stmt).map (fun number => min (db.rows stmt) number.toNat)).getD (db.rows stmt) := by
  cases parsed with
  | error message => cases accepted
  | ok statements =>
      unfold GuardConfig.guard at accepted
      simp only at accepted
      split at accepted
      · rename_i stmt single
        rcases guardStatement_eq_ok.mp accepted with ⟨passes, same⟩
        rw [governed_eq] at same
        cases added : cfg.addsLimit stmt with
        | none =>
            rw [added] at same
            cases same
            refine ⟨?_, statements, stmt, rfl, single, rfl, rfl, ?_⟩
            · rw [guard_single]
              refine guardStatement_eq_ok.mpr ⟨passes, ?_⟩
              change stmt = cfg.governed stmt
              rw [governed_eq, added]
              rfl
            · intro db
              rw [added]
              rfl
        | some number =>
            rw [added] at same
            cases same
            have condition : (stmt.kind = .select ∧ stmt.args.limit = none ∧ unlimited cfg.defaultRowLimit = false) ∧
                cfg.defaultRowLimit = some number := by
              unfold GuardConfig.addsLimit at added
              split at added
              · rename_i all
                exact ⟨all, added⟩
              · cases added
            have atLeast : 0 ≤ number := by
              have limited := condition.1.2.2
              rw [condition.2] at limited
              exact not_lt.mp (of_decide_eq_false limited)
            refine ⟨?_, statements, stmt, rfl, single, tables_withLimit stmt number, ?_, ?_⟩
            · rw [guard_single]
              refine guardStatement_eq_ok.mpr ⟨passes.withLimit number, ?_⟩
              change _ = cfg.governed (stmt.withLimit number)
              rw [governed_eq, addsLimit_withLimit]
              rfl
            · rfl
            · intro db
              rw [added]
              exact rows_withLimit_eq db atLeast condition.1.2.1
      · cases accepted

theorem select_gets_a_limit : limitConfig.guard (.ok [some (selectAll.withLimit 100000)]) =
    .ok (selectAll.withLimit 100000) := by
  have accepted : limitConfig.guard (.ok [some selectAll]) = .ok (selectAll.withLimit 100000) :=
    guardStatement_eq_ok.mpr ⟨limitConfig_passes rfl (by decide) (by decide), rfl⟩
  exact (guard_preserves limitConfig _ _ accepted).1

end SqlGuard
end WarehouseSync

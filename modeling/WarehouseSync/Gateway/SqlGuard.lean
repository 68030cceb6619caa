import WarehouseSync.Extract.Schema
import WarehouseSync.Library.Checks
import WarehouseSync.Library.PythonText
import Mathlib.Data.List.Sort

namespace WarehouseSync
namespace SqlGuard

open Checks DecimalText Schema

/-!
# The SQL guard (`gateway/sql_guard.py`)

The guard works on the syntax tree that the parser made of the SQL text.  It
walks the whole tree, so what it sees does not depend on where a node stands;
which names a WITH clause binds, and where, is described here next to it, since
that is what decides which tables a query reads.
-/

/-- The write statements the guard looks for. -/
inductive WriteKind where
  | insert
  | update
  | delete
  | merge
  | create
  | drop
  | alter
  | truncateTable
deriving DecidableEq, Repr

def WriteKind.className : WriteKind -> String
  | .insert => "Insert"
  | .update => "Update"
  | .delete => "Delete"
  | .merge => "Merge"
  | .create => "Create"
  | .drop => "Drop"
  | .alter => "Alter"
  | .truncateTable => "TruncateTable"

/-- The classes of nodes that matter to the guard.  All others are one case with
their name, which is only read for an error. -/
inductive Kind where
  | select
  | subquery
  | union
  | with
  | table (db : Option String) (name : String)
  | write (kind : WriteKind)
  | limit
  | fetch
  | literal (text : String)
  | other (className : String)
deriving DecidableEq, Repr

def Kind.className : Kind -> String
  | .select => "Select"
  | .subquery => "Subquery"
  | .union => "Union"
  | .with => "With"
  | .table _ _ => "Table"
  | .write kind => kind.className
  | .limit => "Limit"
  | .fetch => "Fetch"
  | .literal _ => "Literal"
  | .other className => className

/-- What a node is for its parent: the query of a common table expression (whose
own node, and that of the WITH clause, are left out), the row limit, or any
other part. -/
inductive Arg where
  | cte (recursive : Bool) (name : String)
  | limit
  | part
deriving DecidableEq, Repr

mutual

/-- A syntax tree as the parser returns it.  It is mutual with its arguments rather
than nested in a list, so that recursion over it is structural. -/
inductive Node where
  | mk (kind : Kind) (args : Args)

inductive Args where
  | nil
  | cons (arg : Arg) (node : Node) (rest : Args)

end

def Node.kind : Node -> Kind
  | .mk kind _ => kind

def Node.args : Node -> Args
  | .mk _ args => args

/-- `args.get("limit")`. -/
def Args.limit : Args -> Option Node
  | .nil => none
  | .cons .limit node _ => some node
  | .cons _ _ rest => rest.limit

def Args.first : Args -> Option Node
  | .nil => none
  | .cons _ node _ => some node

mutual

/-- `walk`: the classes of all nodes.  The checks for writes and for tables read
nothing else of a tree. -/
def Node.walk : Node -> List Kind
  | .mk kind args => kind :: args.walk

def Args.walk : Args -> List Kind
  | .nil => []
  | .cons _ node rest => node.walk ++ rest.walk

end

def writeOf : Kind -> Option WriteKind
  | .write kind => some kind
  | _ => none

def tableOf : Kind -> Option (Option String × String)
  | .table db name => some (db, name)
  | _ => none

/-- `find_all(exp.Table)`.  The order of the tables only decides which one an
error names. -/
def Node.tables (node : Node) : List (Option String × String) :=
  node.walk.filterMap tableOf

/-- A limit of `None` or below zero is unlimited.  The schemas are those that the
request's principal may read. -/
structure GuardConfig where
  allowedSchemas : List String
  defaultRowLimit : Option Int
  maxRowLimit : Option Int
deriving DecidableEq, Repr

def unlimited : Option Int -> Bool
  | none => true
  | some limit => decide (limit < 0)

/-- A list of strings as an f-string shows it. -/
def shown (texts : List String) : String :=
  "[" ++ ", ".intercalate (texts.map (fun text => "'" ++ text ++ "'")) ++ "]"

def GuardConfig.shownSchemas (cfg : GuardConfig) : String :=
  shown (cfg.allowedSchemas.dedup.insertionSort (· ≤ ·))

def isQuery : Kind -> Bool
  | .select => true
  | .subquery => true
  | .union => true
  | .with => true
  | _ => false

/-- The statement is a query by the class of its root.  What stands below the root
is left to the other checks. -/
def checkRoot (stmt : Node) : Except String Unit :=
  if isQuery stmt.kind = true then .ok ()
  else .error ("only SELECT / WITH allowed; got " ++ stmt.kind.className)

/-- No node of the tree is a write, so one inside a common table expression is found
as well. -/
def checkWrites (stmt : Node) : Except String Unit :=
  match stmt.walk.filterMap writeOf with
  | [] => .ok ()
  | kind :: _ => .error ("forbidden statement type: " ++ kind.className)

/-- One table of the statement.  A name without a schema is rejected, and with it
every reference to a common table expression, which is a table node like any other.
-/
def GuardConfig.checkTable (cfg : GuardConfig) : Option String × String -> Except String Unit
  | (none, name) => .error ("table '" ++ name ++ "' must be schema-qualified (one of " ++ cfg.shownSchemas ++ ")")
  | (some db, _) =>
      if db ∈ cfg.allowedSchemas then .ok ()
      else .error ("schema '" ++ db ++ "' is not allowed (allowed: " ++ cfg.shownSchemas ++ ")")

def GuardConfig.checkTables (cfg : GuardConfig) : List (Option String × String) -> Except String Unit
  | [] => .ok ()
  | table :: tables => do
      cfg.checkTable table
      cfg.checkTables tables

/-- What `int(...)` and the comparison after it can raise. -/
inductive Raised where
  | typeError
  | valueError
  | sqlGuardError (message : String)
deriving DecidableEq, Repr

/-- The message the gateway would answer with. -/
def Raised.message : Raised -> String
  | .typeError => "int() argument must be a string, a bytes-like object or a real number"
  | .valueError => "invalid literal for int() with base 10"
  | .sqlGuardError message => message

/-- The `except (TypeError, ValueError)` clause; `SqlGuardError` is declared as a
subclass of `ValueError`.  So the clause that is there for limits that are no
numbers also catches the error for those that are too high. -/
def Raised.isCaught : Raised -> Bool
  | .typeError => true
  | .valueError => true
  | .sqlGuardError _ => true

/-- `int(limit.expression.this)` for a node that has an expression.  The text of a
literal may be no integer, and the `this` of any other node is no text. -/
def limitNumber : Node -> Except Raised Int
  | .mk (.literal text) _ =>
      match PythonText.readInt text.toList with
      | some number => .ok number
      | none => .error .valueError
  | _ => .error .typeError

/-- The body of the `try`.  A FETCH clause has no expression and counts as the
maximum. -/
def checkLimit (max : Int) (limit : Node) : Except Raised Unit := do
  let number <- match limit.kind, limit.args.first with
    | .limit, some expression => limitNumber expression
    | _, _ => .ok max
  if number > max then
    .error (.sqlGuardError ("LIMIT " ++ String.ofList (intText number) ++ " exceeds max " ++
      String.ofList (intText max)))
  else .ok ()

/-- `stmt.limit(n)` on a statement without a limit. -/
def Node.withLimit (stmt : Node) (number : Int) : Node :=
  .mk stmt.kind (.cons .limit
    (.mk .limit (.cons .part (.mk (.literal (String.ofList (intText number))) .nil) .nil)) stmt.args)

/-- The last part of `guard`; only a SELECT gets this far with its limit.  Whatever
`checkLimit` raises is caught here, so the statement is returned either way. -/
def GuardConfig.governRows (cfg : GuardConfig) (stmt : Node) : Except String Node :=
  if stmt.kind = .select then
    match stmt.args.limit with
    | none =>
        match cfg.defaultRowLimit with
        | none => .ok stmt
        | some number => if unlimited (some number) = true then .ok stmt else .ok (stmt.withLimit number)
    | some limit =>
        match cfg.maxRowLimit with
        | none => .ok stmt
        | some max =>
            if unlimited (some max) = true then .ok stmt
            else
              match checkLimit max limit with
              | .ok _ => .ok stmt
              | .error raised => if raised.isCaught = true then .ok stmt else .error raised.message
  else .ok stmt

def GuardConfig.guardStatement (cfg : GuardConfig) (stmt : Node) : Except String Node := do
  checkRoot stmt
  checkWrites stmt
  cfg.checkTables stmt.tables
  cfg.governRows stmt

/-- `guard` on what the parser returns; empty statements are skipped.  The parser is
not modelled: every tree that it could return is an input. -/
def GuardConfig.guard (cfg : GuardConfig) : Except String (List (Option Node)) -> Except String Node
  | .error message => .error ("parse error: " ++ message)
  | .ok statements =>
      match statements.filterMap (fun stmt => stmt) with
      | [stmt] => cfg.guardStatement stmt
      | _ => .error "exactly one statement required"

/-! ## What the guard accepts, and what it returns -/

/-- The tables a guarded query may read. -/
def GuardConfig.Allows (cfg : GuardConfig) (table : Option String × String) : Prop :=
  Exists fun db : String => table.1 = some db ∧ db ∈ cfg.allowedSchemas

/-- The three checks, which are all that can reject a statement.  As a structure
they can be used one by one. -/
structure GuardConfig.Passes (cfg : GuardConfig) (stmt : Node) : Prop where
  query : isQuery stmt.kind = true
  reads : forall kind, kind ∈ stmt.walk -> writeOf kind = none
  tables : forall table, table ∈ stmt.tables -> cfg.Allows table

/-- What is done to the row limit.  A statement that brings one of its own is left
as it is. -/
def GuardConfig.governed (cfg : GuardConfig) (stmt : Node) : Node :=
  if stmt.kind = .select ∧ stmt.args.limit = none then
    match cfg.defaultRowLimit with
    | none => stmt
    | some number => if unlimited (some number) = true then stmt else stmt.withLimit number
  else stmt

variable {cfg : GuardConfig} {stmt out : Node}

theorem isCaught_eq_true (raised : Raised) : raised.isCaught = true := by
  cases raised with
  | typeError => rfl
  | valueError => rfl
  | sqlGuardError message => rfl

/-- Governing the rows never rejects: a limit above the maximum raises an error
that the clause around it catches. -/
theorem governRows_eq_ok (cfg : GuardConfig) (stmt : Node) :
    cfg.governRows stmt = .ok (cfg.governed stmt) := by
  unfold GuardConfig.governRows GuardConfig.governed
  by_cases select : stmt.kind = .select
  · rw [if_pos select]
    cases limited : stmt.args.limit with
    | none =>
        rw [if_pos ⟨select, rfl⟩]
        simp only
        cases cfg.defaultRowLimit with
        | none => rfl
        | some number =>
            simp only
            split
            · rfl
            · rfl
    | some limit =>
        rw [if_neg (fun both => by cases both.2)]
        simp only
        cases cfg.maxRowLimit with
        | none => rfl
        | some max =>
            simp only
            split
            · rfl
            · cases checkLimit max limit with
              | ok _ => rfl
              | error raised => simp only [isCaught_eq_true raised, if_true]
  · rw [if_neg select, if_neg (fun both => select both.1)]

theorem checkWrites_eq_ok :
    checkWrites stmt = .ok () ↔ forall kind, kind ∈ stmt.walk -> writeOf kind = none := by
  unfold checkWrites
  rw [← List.filterMap_eq_nil_iff]
  cases stmt.walk.filterMap writeOf with
  | nil => simp
  | cons kind rest => simp

theorem checkTable_eq_ok {table : Option String × String} :
    cfg.checkTable table = .ok () ↔ cfg.Allows table := by
  rcases table with ⟨db, name⟩
  cases db with
  | none => simp [GuardConfig.checkTable, GuardConfig.Allows]
  | some db =>
      refine ite_eq_ok.trans ?_
      simp [GuardConfig.Allows]

theorem checkTables_eq_ok {tables : List (Option String × String)} :
    cfg.checkTables tables = .ok () ↔ forall table, table ∈ tables -> cfg.Allows table := by
  induction tables with
  | nil => simp [GuardConfig.checkTables]
  | cons table tables ih =>
      unfold GuardConfig.checkTables
      rw [bind_unit_eq_ok, checkTable_eq_ok, ih, List.forall_mem_cons]

theorem guardStatement_eq_ok :
    cfg.guardStatement stmt = .ok out ↔ cfg.Passes stmt ∧ out = cfg.governed stmt := by
  unfold GuardConfig.guardStatement
  rw [bind_unit_eq_ok, bind_unit_eq_ok, bind_unit_eq_ok, checkWrites_eq_ok, checkTables_eq_ok,
    governRows_eq_ok, Except.ok.injEq]
  unfold checkRoot
  rw [ite_eq_ok]
  constructor
  · rintro ⟨query, reads, tables, same⟩
    exact ⟨⟨query, reads, tables⟩, same.symm⟩
  · rintro ⟨⟨query, reads, tables⟩, same⟩
    exact ⟨query, reads, tables, same.symm⟩

/-- One parsed statement, possibly among empty ones. -/
theorem guard_single (stmt : Node) : cfg.guard (.ok [some stmt]) = cfg.guardStatement stmt := rfl

end SqlGuard
end WarehouseSync

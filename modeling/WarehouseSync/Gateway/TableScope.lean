import WarehouseSync.Gateway.SqlGuard

namespace WarehouseSync
namespace SqlGuard

open Schema

/-!
# Which tables a query reads

An unqualified name that a WITH clause around it binds is a reference to the
query of that clause, and no table.  A plain WITH clause binds its names in the
queries after them and in the rest of the statement, a recursive one in all of
its queries.  To the guard every reference is a table node without a schema, so
it rejects each statement that uses what its WITH clause binds.
-/

/-- A table node and whether it refers to a common table expression.  Only those
that do not are relations of the lake. -/
structure TableRef where
  db : Option String
  name : String
  bound : Bool
deriving DecidableEq, Repr

/-- Identifiers are compared without regard to case. -/
def isBound (scope : List String) (name : String) : Bool :=
  scope.any (fun binding => lower binding == lower name)

def Arg.names : Arg -> List String
  | .cte _ name => [name]
  | _ => []

/-- The names of a WITH clause. -/
def Args.names : Args -> List String
  | .nil => []
  | .cons arg _ rest => arg.names ++ rest.names

/-- The names in scope at an argument: those from outside, and of the names of the
clause itself all of them or the ones before.  Without RECURSIVE a query sees only
what stands before it. -/
def Arg.scope (outer clause earlier : List String) : Arg -> List String
  | .cte false _ => earlier ++ outer
  | _ => clause ++ outer

/-- The reference a node makes by itself. -/
def resolveKind (scope : List String) (kind : Kind) : List TableRef :=
  match tableOf kind with
  | some (db, name) => [{ db := db, name := name, bound := db.isNone && isBound scope name }]
  | none => []

mutual

def Node.resolve (scope : List String) : Node -> List TableRef
  | .mk kind args => resolveKind scope kind ++ args.resolve scope args.names []

def Args.resolve (outer clause earlier : List String) : Args -> List TableRef
  | .nil => []
  | .cons arg node rest =>
      node.resolve (arg.scope outer clause earlier) ++ rest.resolve outer clause (arg.names ++ earlier)

end

/-- Every base relation of the statement is qualified with an allowed schema.  This
is what the guard is for, in terms of what a statement reads. -/
def GuardConfig.ReadsAllowed (cfg : GuardConfig) (stmt : Node) : Prop :=
  forall ref, ref ∈ stmt.resolve [] -> ref.bound = false -> cfg.Allows (ref.db, ref.name)

instance decidableAllows (cfg : GuardConfig) : (table : Option String × String) -> Decidable (cfg.Allows table)
  | (none, _) => isFalse (fun ⟨_, impossible, _⟩ => by cases impossible)
  | (some db, _) => decidable_of_iff (db ∈ cfg.allowedSchemas)
      ⟨fun member => ⟨db, rfl, member⟩, fun ⟨_, same, member⟩ => Option.some.inj same ▸ member⟩

instance decidableReadsAllowed (cfg : GuardConfig) (stmt : Node) : Decidable (cfg.ReadsAllowed stmt) :=
  inferInstanceAs (Decidable (forall ref, ref ∈ stmt.resolve [] -> _))

variable {cfg : GuardConfig} {stmt : Node}

theorem resolveKind_tables (scope : List String) (kind : Kind) :
    (resolveKind scope kind).map (fun ref => (ref.db, ref.name)) = [kind].filterMap tableOf := by
  unfold resolveKind
  cases found : tableOf kind with
  | none => simp [found]
  | some table => simp [found]

mutual

/-- Resolving forgets no table node and adds none. -/
theorem Node.resolve_tables (scope : List String) : (node : Node) ->
    (node.resolve scope).map (fun ref => (ref.db, ref.name)) = node.walk.filterMap tableOf
  | .mk kind args => by
      have rest := Args.resolve_tables scope args.names [] args
      unfold Node.resolve Node.walk
      rw [List.map_append, resolveKind_tables, rest, ← List.filterMap_append]
      rfl

theorem Args.resolve_tables (outer clause earlier : List String) : (args : Args) ->
    (args.resolve outer clause earlier).map (fun ref => (ref.db, ref.name)) = args.walk.filterMap tableOf
  | .nil => rfl
  | .cons arg node rest => by
      have first := Node.resolve_tables (arg.scope outer clause earlier) node
      have others := Args.resolve_tables outer clause (arg.names ++ earlier) rest
      unfold Args.resolve Args.walk
      rw [List.map_append, first, others, ← List.filterMap_append]

end

theorem resolveKind_bound {scope : List String} {kind : Kind} {ref : TableRef}
    (member : ref ∈ resolveKind scope kind) (bound : ref.bound = true) : ref.db = none := by
  unfold resolveKind at member
  split at member
  · rename_i db name _
    rw [List.mem_singleton.mp member] at bound ⊢
    exact Option.isNone_iff_eq_none.mp (Bool.and_eq_true_iff.mp bound).1
  · cases member

mutual

/-- Only unqualified names refer to common table expressions. -/
theorem Node.resolve_bound (scope : List String) : (node : Node) -> forall ref, ref ∈ node.resolve scope ->
    ref.bound = true -> ref.db = none
  | .mk kind args, ref, member, bound => by
      unfold Node.resolve at member
      rcases List.mem_append.mp member with own | inside
      · exact resolveKind_bound own bound
      · exact Args.resolve_bound scope args.names [] args ref inside bound

theorem Args.resolve_bound (outer clause earlier : List String) : (args : Args) -> forall ref,
    ref ∈ args.resolve outer clause earlier -> ref.bound = true -> ref.db = none
  | .nil, ref, member, bound => by cases member
  | .cons arg node rest, ref, member, bound => by
      unfold Args.resolve at member
      rcases List.mem_append.mp member with first | others
      · exact Node.resolve_bound (arg.scope outer clause earlier) node ref first bound
      · exact Args.resolve_bound outer clause (arg.names ++ earlier) rest ref others bound

end

/-- All table nodes are allowed exactly if the base relations are and there is
no reference to a common table expression. -/
theorem tables_allowed_iff : (forall table, table ∈ stmt.tables -> cfg.Allows table) ↔
    cfg.ReadsAllowed stmt ∧ forall ref, ref ∈ stmt.resolve [] -> ref.bound = false := by
  unfold Node.tables
  rw [← Node.resolve_tables []]
  constructor
  · intro allowed
    have each : forall ref, ref ∈ stmt.resolve [] -> cfg.Allows (ref.db, ref.name) :=
      fun ref member => allowed _ (List.mem_map.mpr ⟨ref, member, rfl⟩)
    refine ⟨fun ref member _ => each ref member, fun ref member => ?_⟩
    cases bound : ref.bound with
    | false => rfl
    | true =>
        rcases each ref member with ⟨db, qualified, _⟩
        cases (Node.resolve_bound [] stmt ref member bound).symm.trans qualified
  · rintro ⟨allowed, unbound⟩ table member
    rcases List.mem_map.mp member with ⟨ref, listed, rfl⟩
    exact allowed ref listed (unbound ref listed)

/-- For a query without write nodes, accepting it is the same as all of its base
relations being allowed, exactly if it refers to no common table expression or reads
a relation that is not allowed. -/
theorem accepts_reads_iff (cfg : GuardConfig) (stmt : Node) (query : isQuery stmt.kind = true)
    (reads : forall kind, kind ∈ stmt.walk -> writeOf kind = none) :
    ((Exists fun out : Node => cfg.guard (.ok [some stmt]) = .ok out) ↔ cfg.ReadsAllowed stmt) ↔
      (forall ref, ref ∈ stmt.resolve [] -> ref.bound = false) ∨ ¬ cfg.ReadsAllowed stmt := by
  have accepts : (Exists fun out : Node => cfg.guard (.ok [some stmt]) = .ok out) ↔
      cfg.ReadsAllowed stmt ∧ forall ref, ref ∈ stmt.resolve [] -> ref.bound = false := by
    rw [← tables_allowed_iff]
    constructor
    · rintro ⟨out, accepted⟩
      rw [guard_single] at accepted
      exact (guardStatement_eq_ok.mp accepted).1.tables
    · intro tables
      exact ⟨cfg.governed stmt, guardStatement_eq_ok.mpr ⟨⟨query, reads, tables⟩, rfl⟩⟩
  rw [accepts]
  constructor
  · intro same
    by_cases allowed : cfg.ReadsAllowed stmt
    · exact Or.inl (same.mpr allowed).2
    · exact Or.inr allowed
  · rintro (unbound | forbidden)
    · exact ⟨fun both => both.1, fun allowed => ⟨allowed, unbound⟩⟩
    · exact ⟨fun both => both.1, fun allowed => absurd allowed forbidden⟩

def lakeConfig : GuardConfig :=
  { allowedSchemas := ["viamedia_lake"], defaultRowLimit := some (-1), maxRowLimit := some (-1) }

/-- `SELECT ... FROM` this table. -/
def selectFrom (db : Option String) (name : String) : Node :=
  .mk .select (.cons .part (.mk (.table db name) .nil) .nil)

/-- `WITH recent AS (SELECT ... FROM viamedia_lake.public__events) SELECT ... FROM` that table. -/
def withRecent (db : Option String) (name : String) : Node :=
  .mk .select (.cons (.cte false "recent") (selectFrom (some "viamedia_lake") "public__events")
    (.cons .part (.mk (.table db name) .nil) .nil))

theorem unused_with_is_accepted :
    ((Exists fun out : Node =>
        lakeConfig.guard (.ok [some (withRecent (some "viamedia_lake") "public__users")]) = .ok out) ↔
      lakeConfig.ReadsAllowed (withRecent (some "viamedia_lake") "public__users")) := by
  apply (accepts_reads_iff lakeConfig (withRecent (some "viamedia_lake") "public__users") rfl ?_).mpr
  · exact Or.inl (by decide)
  · decide

theorem with_reference_is_rejected : lakeConfig.ReadsAllowed (withRecent none "recent") ∧
    (withRecent none "recent").walk.filterMap writeOf = [] ∧
    ¬ Exists fun out : Node => lakeConfig.guard (.ok [some (withRecent none "recent")]) = .ok out := by
  refine ⟨by decide, by decide, ?_⟩
  rintro ⟨out, accepted⟩
  rw [guard_single] at accepted
  have tables := (guardStatement_eq_ok.mp accepted).1.tables
  have absent : ¬ lakeConfig.Allows (none, "recent") := by decide
  exact absent (tables (none, "recent") (by decide))

end SqlGuard
end WarehouseSync

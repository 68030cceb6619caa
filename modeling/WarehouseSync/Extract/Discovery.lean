import WarehouseSync.Extract.DataTypes
import WarehouseSync.Gateway.ConfigStore
import WarehouseSync.Library.KeyedRows
import WarehouseSync.Orchestration.Tables

namespace WarehouseSync
namespace Discovery

open ConfigStore KeyedRows Schema Tables
open PythonText (strip)

/-!
# Which objects of a source are listed (`extract/discovery.py`)

The system catalogs list the tables and views outside the blacklisted schemas.
From these, discovery keeps either what a selection names, or what the object
types and the globs of the connection admit.
-/

/-- A piece of a pattern.  Globs and the patterns of LIKE are both read into these,
so that there is one notion of a match. -/
inductive Piece where
  | star
  | any
  | char (char : Char)
  | set (negated : Bool) (chunks : List (List Char))
deriving DecidableEq, Repr

/-- The characters of a chunk stand for themselves, and two chunks that follow each
other for the range between them.  A bracket is kept as the chunks between its
hyphens, because `fnmatch` settles only then which hyphens make a range. -/
def inChunks (char : Char) : List (List Char) -> Bool
  | [] => false
  | [chunk] => chunk.contains char
  | left :: right :: rest =>
      left.contains char ||
      (match left.getLast?, right.head? with
        | some low, some high => decide (low ≤ char ∧ char ≤ high)
        | _, _ => char == '-') ||
      inChunks char (right :: rest)

def Piece.admits (char : Char) : Piece -> Bool
  | .star => true
  | .any => true
  | .char only => char == only
  | .set negated chunks => negated != inChunks char chunks

/-- The whole text matches.  A star tries every rest of the text, which is what the
regular expression of `fnmatch` does by backtracking. -/
def matchPieces : List Piece -> List Char -> Bool
  | [], text => text.isEmpty
  | .star :: pieces, text => text.tails.any (fun rest => matchPieces pieces rest)
  | _ :: _, [] => false
  | piece :: pieces, char :: text => piece.admits char && matchPieces pieces text

/-- `%` and `_` in the pattern of a LIKE. -/
def likePieces (pattern : String) : List Piece :=
  pattern.toList.map (fun char => if char = '%' then .star else if char = '_' then .any else .char char)

def like (text pattern : String) : Bool :=
  matchPieces (likePieces pattern) text.toList

/-- Split at the hyphens of ranges: a hyphen counts only after `skip` further
characters, and one that ends the text stands for itself. -/
def chunksFrom (chunk : List Char) : Nat -> List Char -> List (List Char)
  | _, [] => [chunk.reverse]
  | 0, ['-'] => [('-' :: chunk).reverse]
  | 0, '-' :: rest => chunk.reverse :: chunksFrom [] 2 rest
  | skip, char :: rest => chunksFrom (char :: chunk) (skip - 1) rest

/-- Take out the empty ranges, from the last one on. -/
def withoutEmptyRanges : List (List Char) -> List (List Char)
  | [] => []
  | chunk :: rest =>
      match withoutEmptyRanges rest with
      | [] => [chunk]
      | next :: later =>
          match chunk.getLast?, next.head? with
          | some low, some high =>
              if high < low then (chunk.dropLast ++ next.drop 1) :: later else chunk :: next :: later
          | _, _ => chunk :: next :: later

/-- What stands between the brackets. -/
def setPiece (stuff : List Char) : Piece :=
  match withoutEmptyRanges (chunksFrom [] (if stuff.head? = some '!' then 2 else 1) stuff) with
  | ('!' :: chunk) :: rest => .set true (chunk :: rest)
  | chunks => .set false chunks

/-- A bracket is closed; the first character after it, or after its `!`, does not
close it. -/
def closes (rest : List Char) : Bool :=
  ((if rest.head? = some '!' then rest.drop 1 else rest).drop 1).contains ']'

/-- `translate`; inside a bracket it has the characters so far, the last one first.
A bracket that is never closed is a character like others. -/
def translate : Option (List Char) -> List Char -> List Piece
  | _, [] => []
  | none, '*' :: rest => .star :: translate none rest
  | none, '?' :: rest => .any :: translate none rest
  | none, '[' :: rest => if closes rest = true then translate (some []) rest else .char '[' :: translate none rest
  | none, char :: rest => .char char :: translate none rest
  | some stuff, ']' :: rest =>
      if stuff = [] ∨ stuff = ['!'] then translate (some (']' :: stuff)) rest
      else setPiece stuff.reverse :: translate none rest
  | some stuff, char :: rest => translate (some (char :: stuff)) rest

def fnmatch (text pattern : String) : Bool :=
  matchPieces (translate none pattern.toList) text.toList

/-- The parts between commas, stripped, without the empty ones. -/
def commaSeparated (text : String) : List String :=
  ((text.toList.splitOn ',').map (fun part => String.ofList (strip part))).filter (fun part => part != "")

/-- `str.upper`, as far as the names of the kinds depend on it. -/
def upper (text : String) : String :=
  String.ofList (text.toList.map (fun char => if char = 'ı' then 'I' else char.toUpper))

def syncIncludeGlobs (conn : Connection) : List String :=
  commaSeparated conn.syncInclude

def syncExcludeGlobs (conn : Connection) : List String :=
  commaSeparated conn.syncExclude

def syncObjectTypesSet (conn : Connection) : List String :=
  (commaSeparated conn.syncObjectTypes).map upper

def syncSchemaBlacklistSet (conn : Connection) : List String :=
  commaSeparated conn.syncSchemaBlacklist

def globMatchAny (fqn : String) (globs : List String) : Bool :=
  globs.any (fun glob => fnmatch fqn glob)

inductive Kind where
  | table
  | view
  | materializedView
deriving DecidableEq, Repr

def Kind.text : Kind -> String
  | .table => "TABLE"
  | .view => "VIEW"
  | .materializedView => "MATERIALIZED_VIEW"

/-- `_RELKIND_TO_KIND`. -/
def relkindToKind : Char -> Option Kind
  | 'r' => some .table
  | 'p' => some .table
  | 'v' => some .view
  | 'm' => some .materializedView
  | _ => none

/-- A row of `pg_class`, with its columns.  Indexes, sequences and other kinds of
relations share the names with the tables, and are rows as well. -/
structure Relation where
  schema : String
  name : String
  relkind : Char
  columns : List Column
deriving DecidableEq, Repr

def Relation.names (relation : Relation) : Option (String × String) :=
  some (relation.schema, relation.name)

/-- The relations in the order of their schemas and names.  No two have the same
names, which PostgreSQL sees to by a unique index; it is kept with the data because
a table is looked up by its names. -/
structure Source where
  relations : List Relation
  unique : UniqueKeys Relation.names relations

/-- The schemas of temporary objects, as the query recognises them. -/
def temporary (schema : String) : Bool :=
  like schema "pg_temp_%" || like schema "pg_toast_temp_%"

/-- `_list_objects_raw`: the query, then the kind of each row.  What the query
excludes is excluded for every selection and every filter. -/
def listObjectsRaw (source : Source) (schemaBlacklist : List String) : List (String × String × Kind) :=
  let rows := source.relations.filter (fun relation => ['r', 'p', 'v', 'm'].contains relation.relkind &&
    !temporary relation.schema && !schemaBlacklist.contains relation.schema)
  rows.filterMap (fun row => (relkindToKind row.relkind).map (fun kind => (row.schema, row.name, kind)))

/-- `introspect_columns`.  It asks by the names alone and not by the kind, and an
object that is gone has no columns. -/
def introspectColumns (source : Source) (schema table : String) : List Column :=
  (rowsAt Relation.names (some (schema, table)) source.relations).flatMap (fun relation => relation.columns)

structure Discovered extends DiscoveredObject where
  kind : Kind
deriving DecidableEq, Repr

def fqnOf (schema name : String) : String :=
  schema ++ "." ++ name

/-- What a selection or the filters of the connection keep.  A selection is by the
text of schema and name, and where there is one neither the kinds nor the globs are
asked. -/
def keeps (cfg : Connection) (onlyFqns : Option (List String)) (schema name : String) (kind : Kind) : Bool :=
  match onlyFqns with
  | some selected => selected.contains (fqnOf schema name)
  | none =>
      (syncObjectTypesSet cfg).contains kind.text &&
      ((syncIncludeGlobs cfg).isEmpty || globMatchAny (fqnOf schema name) (syncIncludeGlobs cfg)) &&
      !globMatchAny (fqnOf schema name) (syncExcludeGlobs cfg)

def discover (source : Source) (cfg : Connection) (onlyFqns : Option (List String)) : List Discovered :=
  let raw := listObjectsRaw source (syncSchemaBlacklistSet cfg)
  (raw.filter (fun row => keeps cfg onlyFqns row.1 row.2.1 row.2.2)).map (fun row =>
    { schema := row.1, name := row.2.1, columns := introspectColumns source row.1 row.2.1, kind := row.2.2 })

/-! ## What is found -/

/-- The table or view that a relation is, if it is one. -/
def Relation.object (relation : Relation) : Option Discovered :=
  (relkindToKind relation.relkind).map (fun kind =>
    { schema := relation.schema, name := relation.name, columns := relation.columns, kind := kind })

/-- The tables and views of a source: what there is to discover, before any
blacklist, selection or filter. -/
def Source.objects (source : Source) : List Discovered :=
  source.relations.filterMap Relation.object

/-- The schema is looked into.  This is the part of discovery that a selection
cannot overrule. -/
def Visible (cfg : Connection) (object : Discovered) : Prop :=
  object.schema ∉ syncSchemaBlacklistSet cfg ∧ temporary object.schema = false

instance visibleDecidable (cfg : Connection) (object : Discovered) : Decidable (Visible cfg object) :=
  inferInstanceAs (Decidable (_ ∧ _))

def Discovered.names (object : Discovered) : Option (String × String) :=
  some (object.schema, object.name)

variable {source : Source} {cfg : Connection} {onlyFqns : Option (List String)}

theorem introspectColumns_eq {relation : Relation} (member : relation ∈ source.relations) :
    introspectColumns source relation.schema relation.name = relation.columns := by
  unfold introspectColumns
  rw [source.unique.rowsAt_eq member rfl]
  exact List.append_nil relation.columns

theorem keys_objects (relations : List Relation) :
    (keys Discovered.names (relations.filterMap Relation.object)).Sublist (keys Relation.names relations) := by
  induction relations with
  | nil => exact List.Sublist.refl []
  | cons relation rest ih =>
      have whole : keys Relation.names (relation :: rest) =
          (relation.schema, relation.name) :: keys Relation.names rest := rfl
      rw [whole]
      cases kind : relkindToKind relation.relkind with
      | none =>
          rw [List.filterMap_cons_none (by rw [Relation.object, kind, Option.map_none])]
          exact ih.cons _
      | some kind' =>
          rw [List.filterMap_cons_some (by rw [Relation.object, kind, Option.map_some])]
          exact ih.cons_cons _

/-- No two objects have the same names. -/
theorem unique_objects (source : Source) : UniqueKeys Discovered.names source.objects :=
  (keys_objects source.relations).nodup source.unique

theorem listed_of_kind {relation : Relation} {kind : Kind} (known : relkindToKind relation.relkind = some kind) :
    ['r', 'p', 'v', 'm'].contains relation.relkind = true := by
  unfold relkindToKind at known
  split at known <;> first
    | (rename_i same; rw [same]; rfl)
    | cases known

theorem decide_visible (cfg : Connection) (object : Discovered) : decide (Visible cfg object) =
    (!temporary object.schema && !(syncSchemaBlacklistSet cfg).contains object.schema) := by
  rw [Bool.eq_iff_iff, decide_eq_true_iff, Bool.and_comm]
  simp [Visible]

/-- Discovery keeps every visible object that passes, with its own columns. -/
theorem discover_eq (source : Source) (cfg : Connection) (onlyFqns : Option (List String)) :
    discover source cfg onlyFqns = source.objects.filter (fun object =>
      decide (Visible cfg object) && keeps cfg onlyFqns object.schema object.name object.kind) := by
  unfold discover listObjectsRaw Source.objects
  dsimp only
  rw [List.filterMap_filter, List.filter_filterMap, List.map_filterMap, List.filter_filterMap]
  apply List.filterMap_congr
  intro relation member
  cases known : relkindToKind relation.relkind with
  | none => simp [Relation.object, known]
  | some kind =>
      rw [Relation.object, known, Option.map_some, Option.map_some, listed_of_kind known, Bool.true_and,
        Option.filter_some, decide_visible]
      cases !temporary relation.schema && !(syncSchemaBlacklistSet cfg).contains relation.schema with
      | false => rfl
      | true =>
          rw [if_pos rfl, Option.filter_some, Bool.true_and]
          split
          · rw [Option.map_some, introspectColumns_eq member]
          · rfl

end Discovery
end WarehouseSync

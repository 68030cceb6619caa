import WarehouseSync.Library.PercentEncoding
import Mathlib.Data.List.Infix
import Mathlib.Logic.Function.Basic

namespace WarehouseSync
namespace ConnectionUri

open PercentEncoding

/-!
# The URIs of PostgreSQL's client library

`[user[:password]@][host][:port][,...][/dbname][?param=value&...]` after the
scheme.  Every part is percent-encoded; a part that is empty is not set, and a
parameter overrides what the other parts say.  The text ends at its first NUL.
-/

/-- The keywords that the library knows.  They differ from one version to the next,
so only those that are needed here are named. -/
structure Keywords where
  listed : List String
  basic : forall key, key ∈ ["user", "password", "host", "port", "dbname", "sslmode"] -> key ∈ listed
  words : forall key, key ∈ listed -> '?' ∉ key.toList

def utf8 (text : String) : List UInt8 :=
  text.toList.flatMap String.utf8EncodeChar

/-- What is set so far, before it is read as UTF-8. -/
abbrev Settings := String -> Option (List UInt8)

def unset : Settings := fun _ => none

/-- A part of the URI.  An empty part sets nothing, so it cannot be told from one
that is missing. -/
def setPart (key : String) (part : List Char) (settings : Settings) : Option Settings :=
  if part = [] then some settings
  else (unescape part).map (fun bytes => Function.update settings key (some bytes))

/-- Where the reader is in an address: before it, in a plain host, in one in
brackets, after the closing bracket, or in a port. -/
inductive Place where
  | start
  | host
  | opened
  | bracket
  | closed
  | port
deriving DecidableEq, Repr

/-- What the reader does with a character.  The moves are data, so what a text is
read as can be argued character by character. -/
inductive Move where
  | toHost (next : Place)
  | toPort
  | skip (next : Place)
  | comma
  | stop
  | fail
deriving DecidableEq, Repr

def hostMove (char : Char) : Move :=
  if char = ':' then .skip .port
  else if char = ',' then .comma
  else if char = '/' ∨ char = '?' then .stop
  else .toHost .host

def portMove (char : Char) : Move :=
  if char = ',' then .comma else if char = '/' ∨ char = '?' then .stop else .toPort

/-- After a bracket the host is over. -/
def closedMove (char : Char) : Move :=
  if hostMove char = .toHost .host then .fail else hostMove char

/-- An address in brackets must not be empty. -/
def Place.move : Place -> Char -> Move
  | .start, char => if char = '[' then .skip .opened else hostMove char
  | .host, char => hostMove char
  | .opened, char => if char = ']' then .fail else .toHost .bracket
  | .bracket, char => if char = ']' then .skip .closed else .toHost .bracket
  | .closed, char => closedMove char
  | .port, char => portMove char

/-- The hosts and the ports, with commas between them, and what follows.  The two
lists are read together because each host may have its own port. -/
structure Netlocs where
  host : List Char
  port : List Char
  rest : List Char
deriving DecidableEq, Repr

/-- The address from a place on.  It ends before a slash or a question mark, or with
the text unless a bracket is open. -/
def netlocs : Place -> List Char -> Option Netlocs
  | place, [] => if place = .opened ∨ place = .bracket then none else some ⟨[], [], []⟩
  | place, char :: text =>
      match place.move char with
      | .toHost next => (netlocs next text).map (fun read => { read with host := char :: read.host })
      | .toPort => (netlocs .port text).map (fun read => { read with port := char :: read.port })
      | .skip next => netlocs next text
      | .comma => (netlocs .start text).map (fun read => ⟨',' :: read.host, ',' :: read.port, read.rest⟩)
      | .stop => some ⟨[], [], char :: text⟩
      | .fail => none

/-- `conninfo_storeval`, which still translates `requiressl`.  A keyword that is not
known is an error, so nothing is set by it. -/
def storeval (keywords : Keywords) (key : String) (value : List UInt8) (settings : Settings) : Option Settings :=
  if key = "requiressl" then
    some (Function.update settings "sslmode" (some (utf8 (if value.head? = some 49 then "require" else "prefer"))))
  else if key ∈ keywords.listed then some (Function.update settings key (some value))
  else none

/-- `key=value`, with one separator; JDBC writes `ssl=true`.  Both sides may be
escaped, and the key is compared after that. -/
def readParam (keywords : Keywords) (settings : Settings) (segment : List Char) : Option Settings :=
  match segment.splitOn '=' with
  | [key, value] => (unescapeText key).bind (fun key => (unescape value).bind (fun value =>
      if key = "ssl" ∧ value = utf8 "true" then storeval keywords "sslmode" (utf8 "require") settings
      else storeval keywords key value settings))
  | _ => none

/-- Nothing stands after a trailing separator. -/
def segments (query : List Char) : List (List Char) :=
  let parts := query.splitOn '&'
  if parts.getLast? = some [] then parts.dropLast else parts

def readParams (keywords : Keywords) (query : List Char) (settings : Settings) : Option Settings :=
  (segments query).foldlM (readParam keywords) settings

/-- What follows the address: the name of the database, and the parameters after the
question mark. -/
def readPath (keywords : Keywords) (rest : List Char) (settings : Settings) : Option Settings :=
  match rest with
  | '/' :: path => (setPart "dbname" (path.takeWhile (fun char => char != '?')) settings).bind
      (readParams keywords ((path.dropWhile (fun char => char != '?')).drop 1))
  | '?' :: query => readParams keywords query settings
  | _ => some settings

def readAddress (keywords : Keywords) (address : List Char) (settings : Settings) : Option Settings :=
  (netlocs .start address).bind (fun read =>
    (setPart "host" read.host settings).bind (fun settings =>
      (setPart "port" read.port settings).bind (readPath keywords read.rest)))

/-- Credentials end at an `@` that no `/` precedes.  Without one the text begins
with the address. -/
def readText (keywords : Keywords) (text : List Char) : Option Settings :=
  let credentials := text.takeWhile (fun char => char != '@' && char != '/')
  match text.dropWhile (fun char => char != '@' && char != '/') with
  | '@' :: address =>
      (setPart "user" (credentials.takeWhile (fun char => char != ':')) unset).bind (fun settings =>
        (setPart "password" ((credentials.dropWhile (fun char => char != ':')).drop 1) settings).bind
          (readAddress keywords address))
  | _ => readAddress keywords text unset

/-- The settings as texts; all of them must be valid UTF-8.  One that is not makes
the reading as a whole fail. -/
def toDict (keywords : Keywords) (settings : Settings) : Option (String -> Option String) :=
  if keywords.listed.all (fun key =>
      (settings key).all (fun bytes => (String.fromUTF8? ⟨bytes.toArray⟩).isSome)) = true then
    some (fun key => (settings key).bind (fun bytes => String.fromUTF8? ⟨bytes.toArray⟩))
  else none

/-- A URI with the given scheme.  A text ends at the character of code 0, whatever
stands after it. -/
def readUri (keywords : Keywords) (scheme : String) (dsn : String) : Option (String -> Option String) :=
  (readText keywords ((dsn.toList.takeWhile (fun char => char != '\x00')).drop scheme.length)).bind
    (toDict keywords)

/-! ## What hosts and ports are -/

/-- A character that a host without brackets has. -/
def Plain (char : Char) : Prop :=
  char ≠ ':' ∧ char ≠ '/' ∧ char ≠ '?' ∧ char ≠ ','

instance decidablePlain (char : Char) : Decidable (Plain char) :=
  inferInstanceAs (Decidable (_ ∧ _))

theorem hostMove_plain {char : Char} (plain : Plain char) : hostMove char = .toHost .host := by
  unfold hostMove
  rw [if_neg plain.1, if_neg plain.2.2.2, if_neg (fun either => either.elim plain.2.1 plain.2.2.1)]

theorem hostMove_cases (char : Char) :
    (char = ':' ∧ hostMove char = .skip .port) ∨ (char = ',' ∧ hostMove char = .comma) ∨
      ((char = '/' ∨ char = '?') ∧ hostMove char = .stop) ∨ (Plain char ∧ hostMove char = .toHost .host) := by
  by_cases colon : char = ':'
  · exact Or.inl ⟨colon, by rw [colon]; rfl⟩
  · by_cases comma : char = ','
    · exact Or.inr (Or.inl ⟨comma, by rw [comma]; rfl⟩)
    · by_cases ended : char = '/' ∨ char = '?'
      · exact Or.inr (Or.inr (Or.inl ⟨ended, by unfold hostMove; rw [if_neg colon, if_neg comma, if_pos ended]⟩))
      · have plain : Plain char :=
          ⟨colon, fun slash => ended (Or.inl slash), fun mark => ended (Or.inr mark), comma⟩
        exact Or.inr (Or.inr (Or.inr ⟨plain, hostMove_plain plain⟩))

theorem portMove_cases (char : Char) :
    (char = ',' ∧ portMove char = .comma) ∨ ((char = '/' ∨ char = '?') ∧ portMove char = .stop) ∨
      ((char ≠ ',' ∧ char ≠ '/' ∧ char ≠ '?') ∧ portMove char = .toPort) := by
  unfold portMove
  by_cases comma : char = ','
  · exact Or.inl ⟨comma, if_pos comma⟩
  · rw [if_neg comma]
    by_cases ended : char = '/' ∨ char = '?'
    · exact Or.inr (Or.inl ⟨ended, if_pos ended⟩)
    · exact Or.inr (Or.inr ⟨⟨comma, fun slash => ended (Or.inl slash), fun mark => ended (Or.inr mark)⟩,
        if_neg ended⟩)

theorem closedMove_cases (char : Char) :
    (char = ':' ∧ closedMove char = .skip .port) ∨ (char = ',' ∧ closedMove char = .comma) ∨
      ((char = '/' ∨ char = '?') ∧ closedMove char = .stop) ∨ (Plain char ∧ closedMove char = .fail) := by
  unfold closedMove
  rcases hostMove_cases char with ⟨is, move⟩ | ⟨is, move⟩ | ⟨is, move⟩ | ⟨is, move⟩
  · rw [move, if_neg (by decide)]
    exact Or.inl ⟨is, rfl⟩
  · rw [move, if_neg (by decide)]
    exact Or.inr (Or.inl ⟨is, rfl⟩)
  · rw [move, if_neg (by decide)]
    exact Or.inr (Or.inr (Or.inl ⟨is, rfl⟩))
  · rw [move, if_pos rfl]
    exact Or.inr (Or.inr (Or.inr ⟨is, rfl⟩))

theorem stop_cases {place : Place} {char : Char} (move : place.move char = .stop) : char = '/' ∨ char = '?' := by
  have ofHost : hostMove char = .stop -> char = '/' ∨ char = '?' := by
    intro stops
    rcases hostMove_cases char with ⟨_, is⟩ | ⟨_, is⟩ | ⟨ended, _⟩ | ⟨_, is⟩
    · rw [is] at stops; cases stops
    · rw [is] at stops; cases stops
    · exact ended
    · rw [is] at stops; cases stops
  cases place with
  | start =>
      change (if char = '[' then Move.skip .opened else hostMove char) = .stop at move
      split at move
      · cases move
      · exact ofHost move
  | host => exact ofHost move
  | opened =>
      change (if char = ']' then Move.fail else Move.toHost .bracket) = .stop at move
      split at move <;> cases move
  | bracket =>
      change (if char = ']' then Move.skip .closed else Move.toHost .bracket) = .stop at move
      split at move <;> cases move
  | closed =>
      rcases closedMove_cases char with ⟨_, is⟩ | ⟨_, is⟩ | ⟨ended, _⟩ | ⟨_, is⟩
      · cases is.symm.trans move
      · cases is.symm.trans move
      · exact ended
      · cases is.symm.trans move
  | port =>
      rcases portMove_cases char with ⟨_, is⟩ | ⟨ended, _⟩ | ⟨_, is⟩
      · cases is.symm.trans move
      · exact ended
      · cases is.symm.trans move

/-- What is read after a character, by the move that it makes.  It is a step of
`netlocs`, given a name for the proofs by cases on the move. -/
def proceed (char : Char) (text : List Char) : Move -> Option Netlocs
  | .toHost next => (netlocs next text).map (fun read => { read with host := char :: read.host })
  | .toPort => (netlocs .port text).map (fun read => { read with port := char :: read.port })
  | .skip next => netlocs next text
  | .comma => (netlocs .start text).map (fun read => ⟨',' :: read.host, ',' :: read.port, read.rest⟩)
  | .stop => some ⟨[], [], char :: text⟩
  | .fail => none

theorem netlocs_cons (place : Place) (char : Char) (text : List Char) :
    netlocs place (char :: text) = proceed char text (place.move char) := rfl

theorem netlocs_host {host : List Char} (plain : forall char, char ∈ host -> Plain char) (text : List Char) :
    netlocs .host (host ++ text) =
      (netlocs .host text).map (fun read => { read with host := host ++ read.host }) := by
  induction host with
  | nil => exact Option.map_id'.symm
  | cons char host ih =>
      rw [List.cons_append, netlocs_cons]
      have move : Place.move .host char = .toHost .host := hostMove_plain (plain char List.mem_cons_self)
      rw [move, proceed, ih (fun other member => plain other (List.mem_cons_of_mem _ member)), Option.map_map]
      rfl

theorem netlocs_port {port : List Char} (clean : forall char, char ∈ port -> char ≠ ',' ∧ char ≠ '/' ∧ char ≠ '?')
    (tail : List Char) : netlocs .port (port ++ '/' :: tail) = some ⟨[], port, '/' :: tail⟩ := by
  induction port with
  | nil => rfl
  | cons char port ih =>
      have apart := clean char List.mem_cons_self
      rw [List.cons_append, netlocs_cons]
      have move : Place.move .port char = .toPort := by
        change portMove char = .toPort
        unfold portMove
        rw [if_neg apart.1, if_neg (fun either => either.elim apart.2.1 apart.2.2)]
      rw [move, proceed, ih (fun other member => clean other (List.mem_cons_of_mem _ member))]
      rfl

/-- A host without brackets and a port are read as they are written. -/
theorem netlocs_address {host port : List Char} (plain : forall char, char ∈ host -> Plain char)
    (unbracketed : host.head? ≠ some '[')
    (clean : forall char, char ∈ port -> char ≠ ',' ∧ char ≠ '/' ∧ char ≠ '?') (tail : List Char) :
    netlocs .start (host ++ ':' :: (port ++ '/' :: tail)) = some ⟨host, port, '/' :: tail⟩ := by
  have started : netlocs .start (host ++ ':' :: (port ++ '/' :: tail)) =
      netlocs .host (host ++ ':' :: (port ++ '/' :: tail)) := by
    cases host with
    | nil => rfl
    | cons char host =>
        have other : char ≠ '[' := fun same => unbracketed (congrArg some same)
        rw [List.cons_append, netlocs_cons, netlocs_cons]
        have move : Place.move .start char = Place.move .host char := if_neg other
        rw [move]
  have colon : netlocs .host (':' :: (port ++ '/' :: tail)) = some ⟨[], port, '/' :: tail⟩ :=
    netlocs_port clean tail
  rw [started, netlocs_host plain, colon, Option.map_some, List.append_nil]

/-- Past the colon, a single host is complete. -/
theorem host_of_port {text : List Char} {read : Netlocs} (found : netlocs .port text = some read)
    (single : ',' ∉ read.port) : read.host = [] := by
  induction text generalizing read with
  | nil =>
      cases found
      rfl
  | cons char text ih =>
      rw [netlocs_cons, Place.move] at found
      rcases portMove_cases char with ⟨_, move⟩ | ⟨_, move⟩ | ⟨_, move⟩
      · rw [move] at found
        rcases Option.map_eq_some_iff.mp found with ⟨later, _, rfl⟩
        exact absurd List.mem_cons_self single
      · rw [move] at found
        cases found
        rfl
      · rw [move] at found
        rcases Option.map_eq_some_iff.mp found with ⟨later, inner, rfl⟩
        have complete := ih inner (fun member => single (List.mem_cons_of_mem _ member))
        exact complete

/-- A single host without brackets ends at the first character that is not one of
its own. -/
theorem host_of_plain {text : List Char} {read : Netlocs} (found : netlocs .host text = some read)
    (single : ',' ∉ read.port) : read.host = text.takeWhile (fun char => decide (Plain char)) := by
  induction text generalizing read with
  | nil =>
      cases found
      rfl
  | cons char text ih =>
      rw [netlocs_cons, Place.move] at found
      rcases hostMove_cases char with ⟨is, move⟩ | ⟨is, move⟩ | ⟨is, move⟩ | ⟨plain, move⟩
      · rw [move] at found
        have stops : ¬ Plain char := fun plain => plain.1 is
        rw [host_of_port found single, List.takeWhile_cons_of_neg (by simpa using stops)]
      · rw [move] at found
        rcases Option.map_eq_some_iff.mp found with ⟨later, _, rfl⟩
        exact absurd List.mem_cons_self single
      · rw [move] at found
        cases found
        have stops : ¬ Plain char := fun plain => is.elim plain.2.1 plain.2.2.1
        rw [List.takeWhile_cons_of_neg (by simpa using stops)]
      · rw [move] at found
        rcases Option.map_eq_some_iff.mp found with ⟨later, inner, rfl⟩
        rw [List.takeWhile_cons_of_pos (by simpa using plain), ih inner single]

/-- A single host in brackets ends at the first closing one. -/
theorem host_of_bracket {place : Place} (inside : place = .opened ∨ place = .bracket) {text : List Char}
    {read : Netlocs} (found : netlocs place text = some read) (single : ',' ∉ read.port) :
    Exists fun rest : List Char => text = read.host ++ ']' :: rest ∧ ']' ∉ read.host ∧
      netlocs .closed rest = some ⟨[], read.port, read.rest⟩ := by
  induction text generalizing place read with
  | nil =>
      rcases inside with rfl | rfl
      · cases found
      · cases found
  | cons char text ih =>
      rw [netlocs_cons] at found
      by_cases closing : char = ']'
      · subst closing
        rcases inside with rfl | rfl
        · cases found
        · change netlocs .closed text = some read at found
          have empty : read.host = [] := by
            cases text with
            | nil =>
                cases found
                rfl
            | cons char text =>
                rw [netlocs_cons, Place.move] at found
                rcases closedMove_cases char with ⟨_, move⟩ | ⟨_, move⟩ | ⟨_, move⟩ | ⟨_, move⟩
                · rw [move] at found
                  exact host_of_port found single
                · rw [move] at found
                  rcases Option.map_eq_some_iff.mp found with ⟨later, _, rfl⟩
                  exact absurd List.mem_cons_self single
                · rw [move] at found
                  cases found
                  rfl
                · rw [move] at found
                  cases found
          refine ⟨text, by rw [empty]; rfl, by rw [empty]; exact List.not_mem_nil, ?_⟩
          rw [found, <- empty]
      · have move : place.move char = .toHost .bracket := by
          rcases inside with rfl | rfl
          · exact if_neg closing
          · exact if_neg closing
        rw [move] at found
        rcases Option.map_eq_some_iff.mp found with ⟨later, inner, rfl⟩
        rcases ih (Or.inr rfl) inner single with ⟨rest, rfl, absent, ended⟩
        refine ⟨rest, rfl, ?_, ended⟩
        rw [List.mem_cons, not_or]
        exact ⟨fun same => closing same.symm, absent⟩

/-- What is left is decided at a slash or a question mark, or later. -/
theorem rest_step {place : Place} {char : Char} {text : List Char} {read : Netlocs}
    (found : netlocs place (char :: text) = some read) :
    ((char = '/' ∨ char = '?') ∧ read.rest = char :: text) ∨
      Exists fun next : Place => Exists fun later : Netlocs =>
        netlocs next text = some later ∧ read.rest = later.rest := by
  rw [netlocs_cons] at found
  cases move : place.move char with
  | toHost next =>
      rw [move] at found
      rcases Option.map_eq_some_iff.mp found with ⟨later, inner, rfl⟩
      exact Or.inr ⟨next, later, inner, rfl⟩
  | toPort =>
      rw [move] at found
      rcases Option.map_eq_some_iff.mp found with ⟨later, inner, rfl⟩
      exact Or.inr ⟨.port, later, inner, rfl⟩
  | skip next =>
      rw [move] at found
      exact Or.inr ⟨next, read, found, rfl⟩
  | comma =>
      rw [move] at found
      rcases Option.map_eq_some_iff.mp found with ⟨later, inner, rfl⟩
      exact Or.inr ⟨.start, later, inner, rfl⟩
  | stop =>
      rw [move] at found
      cases found
      exact Or.inl ⟨stop_cases move, rfl⟩
  | fail =>
      rw [move] at found
      cases found

theorem rest_nil {place : Place} {read : Netlocs} (found : netlocs place [] = some read) : read.rest = [] := by
  unfold netlocs at found
  split at found
  · cases found
  · cases found
    rfl

theorem rest_head {place : Place} {text : List Char} {read : Netlocs} (found : netlocs place text = some read) :
    read.rest = [] ∨ (Exists fun tail : List Char => read.rest = '/' :: tail) ∨
      Exists fun tail : List Char => read.rest = '?' :: tail := by
  induction text generalizing place read with
  | nil => exact Or.inl (rest_nil found)
  | cons char text ih =>
      rcases rest_step found with ⟨rfl | rfl, same⟩ | ⟨next, later, inner, same⟩
      · exact Or.inr (Or.inl ⟨text, same⟩)
      · exact Or.inr (Or.inr ⟨text, same⟩)
      · rw [same]
        exact ih inner

theorem rest_suffix {place : Place} {text : List Char} {read : Netlocs} (found : netlocs place text = some read) :
    read.rest <:+ text := by
  induction text generalizing place read with
  | nil => rw [rest_nil found]
  | cons char text ih =>
      rcases rest_step found with ⟨_, same⟩ | ⟨next, later, inner, same⟩
      · rw [same]
      · rw [same]
        exact (ih inner).trans (List.suffix_cons char text)

/-- A bracket is closed before what is left. -/
theorem rest_after_bracket {text : List Char} {read : Netlocs} (found : netlocs .bracket text = some read) :
    Exists fun inner : List Char => Exists fun rest : List Char =>
      text = inner ++ ']' :: rest ∧ read.rest <:+ rest := by
  induction text generalizing read with
  | nil => cases found
  | cons char text ih =>
      rw [netlocs_cons] at found
      by_cases closing : char = ']'
      · subst closing
        exact ⟨[], text, rfl, @rest_suffix .closed text read found⟩
      · have move : Place.move .bracket char = .toHost .bracket := if_neg closing
        rw [move] at found
        rcases Option.map_eq_some_iff.mp found with ⟨later, within, rfl⟩
        rcases ih within with ⟨inner, rest, rfl, left⟩
        exact ⟨char :: inner, rest, rfl, left⟩

/-- A question mark is left to be read, unless it is in a bracket that closes
after it. -/
theorem rest_at_mark {place : Place} {front back : List Char} {read : Netlocs}
    (found : netlocs place (front ++ '?' :: back) = some read) :
    (Exists fun part : List Char => read.rest = part ++ '?' :: back ∧ part <:+ front) ∨
      Exists fun inner : List Char => Exists fun rest : List Char =>
        back = inner ++ ']' :: rest ∧ read.rest <:+ rest := by
  induction front generalizing place read with
  | nil =>
      have inBracket : (Exists fun later : Netlocs =>
          netlocs .bracket back = some later ∧ read.rest = later.rest) ∨ read.rest = '?' :: back := by
        rw [List.nil_append, netlocs_cons] at found
        cases place with
        | start => cases found; exact Or.inr rfl
        | host => cases found; exact Or.inr rfl
        | closed => cases found; exact Or.inr rfl
        | port => cases found; exact Or.inr rfl
        | opened =>
            rcases Option.map_eq_some_iff.mp found with ⟨later, inner, rfl⟩
            exact Or.inl ⟨later, inner, rfl⟩
        | bracket =>
            rcases Option.map_eq_some_iff.mp found with ⟨later, inner, rfl⟩
            exact Or.inl ⟨later, inner, rfl⟩
      rcases inBracket with ⟨later, inner, same⟩ | same
      · rw [same]
        exact Or.inr (rest_after_bracket inner)
      · exact Or.inl ⟨[], same, List.suffix_refl []⟩
  | cons char front ih =>
      rcases rest_step found with ⟨_, same⟩ | ⟨next, later, inner, same⟩
      · exact Or.inl ⟨char :: front, same, List.suffix_refl _⟩
      · rw [same]
        rcases ih inner with ⟨part, left, suffix⟩ | closes
        · exact Or.inl ⟨part, left, suffix.trans (List.suffix_cons char front)⟩
        · exact Or.inr closes

/-! ## What parameters set -/

variable {keywords : Keywords} {settings after : Settings} {segment query : List Char}

theorem weight_of_mem_splitOn {separator : Char} {text part : List Char} (member : part ∈ text.splitOn separator) :
    weight part ≤ weight text := by
  induction text generalizing part with
  | nil =>
      rw [List.splitOn_nil] at member
      rw [List.mem_singleton.mp member]
  | cons char text ih =>
      rw [weight_cons]
      rw [List.splitOn_cons_eq_if_modifyHead] at member
      split at member
      · rcases List.mem_cons.mp member with rfl | later
        · exact Nat.zero_le _
        · exact Nat.le_trans (ih later) (Nat.le_add_left _ _)
      · cases parts : text.splitOn separator with
        | nil => exact absurd parts (List.splitOn_ne_nil separator text)
        | cons first others =>
            rw [parts] at member
            rcases List.mem_cons.mp member with rfl | later
            · have inner := @ih first (by rw [parts]; exact List.mem_cons_self)
              rw [weight_cons]
              omega
            · have inner := ih (by rw [parts]; exact List.mem_cons_of_mem _ later)
              omega

/-- A text with a separator in it is cut into at least two parts. -/
theorem two_le_length_splitOn {separator : Char} {text : List Char} (member : separator ∈ text) :
    2 ≤ (text.splitOn separator).length := by
  rcases List.append_of_mem member with ⟨front, back, rfl⟩
  rw [List.splitOn_append_cons_self, List.length_append]
  have first := List.length_pos_of_ne_nil (List.splitOn_ne_nil separator front)
  have second := List.length_pos_of_ne_nil (List.splitOn_ne_nil separator back)
  omega

theorem splitOn_eq_pair {separator : Char} {text key value : List Char}
    (parts : text.splitOn separator = [key, value]) :
    text = key ++ separator :: value ∧ separator ∉ key ∧ separator ∉ value := by
  have whole : text = key ++ separator :: value := by
    have joined := @List.intercalate_splitOn Char text _ _ separator
    rw [parts] at joined
    rw [<- joined]
    simp
  have counted : (key.splitOn separator).length + (value.splitOn separator).length = 2 := by
    rw [<- List.length_append, <- List.splitOn_append_cons_self, <- whole, parts]
    rfl
  have first := List.length_pos_of_ne_nil (List.splitOn_ne_nil separator key)
  have second := List.length_pos_of_ne_nil (List.splitOn_ne_nil separator value)
  refine ⟨whole, fun member => ?_, fun member => ?_⟩
  · have more := two_le_length_splitOn member
    omega
  · have more := two_le_length_splitOn member
    omega

/-- The two values that are not in the text. -/
def Translated (bytes : List UInt8) : Prop :=
  bytes = utf8 "require" ∨ bytes = utf8 "prefer"

theorem storeval_cases {key : String} {value : List UInt8}
    (stored : storeval keywords key value settings = some after)
    (other : String) (bytes : List UInt8) (found : after other = some bytes) :
    settings other = some bytes ∨ bytes = value ∨ Translated bytes := by
  have updated : forall (changed : String) (set : List UInt8),
      Function.update settings changed (some set) other = some bytes ->
        settings other = some bytes ∨ bytes = set := by
    intro changed set present
    by_cases same : other = changed
    · subst same
      rw [Function.update_self] at present
      exact Or.inr (Option.some.inj present).symm
    · rw [Function.update_of_ne same] at present
      exact Or.inl present
  unfold storeval at stored
  split at stored
  · cases stored
    rcases updated _ _ found with before | set
    · exact Or.inl before
    · refine Or.inr (Or.inr ?_)
      rw [set]
      split
      · exact Or.inl rfl
      · exact Or.inr rfl
  · split at stored
    · cases stored
      rcases updated _ _ found with before | set
      · exact Or.inl before
      · exact Or.inr (Or.inl set)
    · cases stored

/-- No keyword has a question mark. -/
theorem not_mem_of_storeval {key : String} {value : List UInt8}
    (stored : storeval keywords key value settings = some after) : '?' ∉ key.toList := by
  unfold storeval at stored
  split at stored
  · rename_i same
    rw [same]
    decide
  · split at stored
    · rename_i listed
      exact keywords.words key listed
    · cases stored

/-- A parameter that is accepted: its parts, and what it may set. -/
theorem readParam_eq_some (read : readParam keywords settings segment = some after) :
    Exists fun key : List Char => Exists fun value : List Char => Exists fun bytes : List UInt8 =>
      segment = key ++ '=' :: value ∧ '=' ∉ key ∧ '=' ∉ value ∧ '?' ∉ key ∧ unescape value = some bytes ∧
        forall (other : String) (found : List UInt8), after other = some found ->
          settings other = some found ∨ found = bytes ∨ Translated found := by
  unfold readParam at read
  split at read
  · rename_i key value parts
    rcases Option.bind_eq_some_iff.mp read with ⟨word, isKey, rest⟩
    rcases Option.bind_eq_some_iff.mp rest with ⟨bytes, isValue, stored⟩
    have shape := splitOn_eq_pair parts
    have noMark : '?' ∉ word.toList -> '?' ∉ key := by
      intro absent inside
      have mark := @mem_unescape '?' (by decide) (by decide) 63 List.mem_cons_self key _
        (unescapeText_eq_some.mp isKey) inside
      rcases List.mem_flatMap.mp mark with ⟨char, listed, stands⟩
      have code : char = '?' := Char.ext (UInt32.toNat_inj.mp (ascii_mem_utf8EncodeChar (by decide) stands))
      exact absent (code ▸ listed)
    split at stored
    · rename_i jdbc
      refine ⟨key, value, bytes, shape.1, shape.2.1, shape.2.2, noMark ?_, isValue, ?_⟩
      · rw [jdbc.1]
        decide
      · intro other found present
        rcases storeval_cases stored other found present with before | set | translated
        · exact Or.inl before
        · exact Or.inr (Or.inr (Or.inl set))
        · exact Or.inr (Or.inr translated)
    · exact ⟨key, value, bytes, shape.1, shape.2.1, shape.2.2, noMark (not_mem_of_storeval stored), isValue,
        storeval_cases stored⟩
  · cases read

/-- A question mark in front of the separator is in the keyword, which is then not
known. -/
theorem readParam_mark (settings : Settings) {front back : List Char} (separated : '=' ∈ back) :
    readParam keywords settings (front ++ '?' :: back) = none := by
  cases read : readParam keywords settings (front ++ '?' :: back) with
  | none => rfl
  | some after =>
      exfalso
      rcases readParam_eq_some read with ⟨key, value, _, shape, once, nowhere, noMark, _⟩
      rcases List.append_of_mem separated with ⟨before, tail, rfl⟩
      rw [<- List.cons_append, <- List.append_assoc] at shape
      have same := (List.append_cons_inj_of_notMem once nowhere).mp shape.symm
      apply noMark
      rw [same.1]
      exact List.mem_append_right _ List.mem_cons_self

/-- What is set afterwards was set before, or is no longer than a segment. -/
theorem foldlM_readParam_bound {parts : List (List Char)} {bound : Nat}
    (small : forall part, part ∈ parts -> weight part ≤ bound)
    (read : parts.foldlM (readParam keywords) settings = some after) (key : String) (bytes : List UInt8)
    (found : after key = some bytes) :
    settings key = some bytes ∨ bytes.length ≤ bound ∨ Translated bytes := by
  induction parts generalizing settings with
  | nil =>
      cases read
      exact Or.inl found
  | cons part parts ih =>
      rw [List.foldlM_cons] at read
      rcases Option.bind_eq_some_iff.mp read with ⟨next, first, rest⟩
      rcases ih (fun other member => small other (List.mem_cons_of_mem _ member)) rest with here | short | translated
      · rcases readParam_eq_some first with ⟨_, value, decoded, shape, _, _, _, isValue, sets⟩
        rcases sets key bytes here with before | set | translated
        · exact Or.inl before
        · refine Or.inr (Or.inl ?_)
          have within := small part List.mem_cons_self
          have short := (unescape_length isValue).1
          rw [shape, weight_append, weight_cons] at within
          rw [set]
          omega
        · exact Or.inr (Or.inr translated)
      · exact Or.inr (Or.inl short)
      · exact Or.inr (Or.inr translated)

theorem mem_of_mem_segments (member : segment ∈ segments query) : segment ∈ query.splitOn '&' := by
  unfold segments at member
  simp only at member
  split at member
  · exact List.mem_of_mem_dropLast member
  · exact member

theorem mem_segments (nonempty : segment ≠ []) (member : segment ∈ query.splitOn '&') :
    segment ∈ segments query := by
  unfold segments
  simp only
  split
  · rename_i trailing
    rw [<- List.dropLast_append_getLast? _ trailing] at member
    rcases List.mem_append.mp member with early | last
    · exact early
    · exact absurd (List.mem_singleton.mp last) nonempty
  · exact member

theorem readParams_bound (read : readParams keywords query settings = some after) (key : String)
    (bytes : List UInt8) (found : after key = some bytes) :
    settings key = some bytes ∨ bytes.length ≤ weight query ∨ Translated bytes :=
  foldlM_readParam_bound (fun _ member => weight_of_mem_splitOn (mem_of_mem_segments member)) read key bytes found

theorem foldlM_eq_none_of_mem {parts : List (List Char)} (member : segment ∈ parts)
    (fails : forall settings, readParam keywords settings segment = none) (settings : Settings) :
    parts.foldlM (readParam keywords) settings = none := by
  induction parts generalizing settings with
  | nil => exact absurd member List.not_mem_nil
  | cons part parts ih =>
      rw [List.foldlM_cons]
      rcases List.mem_cons.mp member with rfl | later
      · rw [fails]
        rfl
      · cases readParam keywords settings part with
        | none => rfl
        | some next => exact ih later next

/-- In a query with a question mark before `key=`, some segment has the mark before
its separator. -/
theorem exists_marked_segment {middle tail : List Char} (apart : '&' ∉ middle) (front : List Char) :
    Exists fun before : List Char => Exists fun after : List Char => '=' ∈ after ∧
      before ++ '?' :: after ∈ (front ++ '?' :: (middle ++ '=' :: tail)).splitOn '&' := by
  by_cases cut : '&' ∈ front
  · rcases List.append_of_mem cut with ⟨first, second, rfl⟩
    rcases exists_marked_segment apart second with ⟨before, after, separated, member⟩
    refine ⟨before, after, separated, ?_⟩
    rw [List.append_assoc, List.cons_append, List.splitOn_append_cons_self]
    exact List.mem_append_right _ member
  · have whole : '&' ∉ front ++ '?' :: (middle ++ ['=']) := by
      simp only [List.mem_append, List.mem_cons, List.not_mem_nil, or_false, not_or]
      exact ⟨cut, by decide, apart, by decide⟩
    by_cases more : '&' ∈ tail
    · rcases List.eq_append_cons_of_mem more with ⟨value, rest, rfl, absent⟩
      refine ⟨front, middle ++ '=' :: value, List.mem_append_right _ List.mem_cons_self, ?_⟩
      have shape : front ++ '?' :: (middle ++ '=' :: (value ++ '&' :: rest)) =
          (front ++ '?' :: (middle ++ '=' :: value)) ++ '&' :: rest := by
        simp only [List.append_assoc, List.cons_append]
      rw [shape, List.splitOn_append_cons_self_of_not_mem]
      · exact List.mem_cons_self
      · simp only [List.mem_append, List.mem_cons, List.not_mem_nil, or_false, not_or] at whole ⊢
        exact ⟨whole.1, whole.2.1, whole.2.2.1, whole.2.2.2, absent⟩
    · refine ⟨front, middle ++ '=' :: tail, List.mem_append_right _ List.mem_cons_self, ?_⟩
      rw [List.splitOn_eq_singleton]
      · exact List.mem_singleton_self _
      · simp only [List.mem_append, List.mem_cons, List.not_mem_nil, or_false, not_or] at whole ⊢
        exact ⟨whole.1, whole.2.1, whole.2.2.1, whole.2.2.2, more⟩
termination_by front.length
decreasing_by
  subst_vars
  simp only [List.length_append, List.length_cons]
  omega

/-- No query with a question mark before `key=` is accepted. -/
theorem readParams_mark (settings : Settings) {middle : List Char} (apart : '&' ∉ middle) (front tail : List Char) :
    readParams keywords (front ++ '?' :: (middle ++ '=' :: tail)) settings = none := by
  rcases @exists_marked_segment middle tail apart front with ⟨before, after, separated, member⟩
  apply foldlM_eq_none_of_mem (mem_segments _ member)
  · exact fun settings => readParam_mark settings separated
  · exact fun empty => absurd empty (by simp)

/-- One parameter that is the whole query. -/
theorem readParams_single {key : String} (listed : key ∈ keywords.listed)
    (known : key ≠ "requiressl" ∧ key ≠ "ssl") (plain : '%' ∉ key.toList ∧ '=' ∉ key.toList ∧ '&' ∉ key.toList)
    (settings : Settings) {value : List Char} (alone : '&' ∉ value) :
    readParams keywords (key.toList ++ '=' :: value) settings =
      if '=' ∈ value then none
      else (unescape value).map (fun bytes => Function.update settings key (some bytes)) := by
  have whole : '&' ∉ key.toList ++ '=' :: value := by
    rw [List.mem_append, List.mem_cons, not_or, not_or]
    exact ⟨plain.2.2, by decide, alone⟩
  have only : segments (key.toList ++ '=' :: value) = [key.toList ++ '=' :: value] := by
    unfold segments
    simp only
    rw [List.splitOn_eq_singleton whole, if_neg]
    intro trailing
    exact absurd (Option.some.inj trailing) (by simp)
  have once : readParams keywords (key.toList ++ '=' :: value) settings =
      readParam keywords settings (key.toList ++ '=' :: value) := by
    unfold readParams
    rw [only, List.foldlM_cons]
    cases readParam keywords settings (key.toList ++ '=' :: value) <;> rfl
  rw [once]
  by_cases separated : '=' ∈ value
  · rw [if_pos separated]
    cases read : readParam keywords settings (key.toList ++ '=' :: value) with
    | none => rfl
    | some after =>
        rcases readParam_eq_some read with ⟨first, second, _, shape, absent, nowhere, _⟩
        have same := (List.append_cons_inj_of_notMem absent nowhere).mp shape.symm
        exact absurd (same.2.2 ▸ separated) nowhere
  · rw [if_neg separated]
    unfold readParam
    rw [List.splitOn_append_cons_self_of_not_mem plain.2.1, List.splitOn_eq_singleton separated]
    simp only
    rw [(unescapeText_self_iff key).mpr plain.1, Option.bind_some]
    cases unescape value with
    | none => rfl
    | some bytes =>
        rw [Option.bind_some, if_neg (fun jdbc => known.2 jdbc.1)]
        unfold storeval
        rw [if_neg known.1, if_pos listed]
        rfl

/-- With a separator in its value, no parameter keeps what was meant. -/
theorem readParams_cut {key : List Char} (plain : '=' ∉ key ∧ '&' ∉ key) {value : List Char} (cut : '&' ∈ value)
    (read : readParams keywords (key ++ '=' :: value) settings = some after) (other : String) (bytes : List UInt8)
    (found : after other = some bytes) :
    settings other = some bytes ∨ bytes.length < weight value ∨ Translated bytes := by
  rcases List.eq_append_cons_of_mem cut with ⟨first, more, rfl, absent⟩
  have head : '&' ∉ key ++ '=' :: first := by
    rw [List.mem_append, List.mem_cons, not_or, not_or]
    exact ⟨plain.2, by decide, absent⟩
  have parts : (key ++ '=' :: (first ++ '&' :: more)).splitOn '&' = (key ++ '=' :: first) :: more.splitOn '&' := by
    have shape : key ++ '=' :: (first ++ '&' :: more) = (key ++ '=' :: first) ++ '&' :: more := by
      simp only [List.append_assoc, List.cons_append]
    rw [shape, List.splitOn_append_cons_self_of_not_mem head]
  have later : Exists fun rest : List (List Char) =>
      segments (key ++ '=' :: (first ++ '&' :: more)) = (key ++ '=' :: first) :: rest ∧
        forall part, part ∈ rest -> part ∈ more.splitOn '&' := by
    unfold segments
    simp only
    rw [parts]
    split
    · refine ⟨(more.splitOn '&').dropLast, ?_, fun part member => List.mem_of_mem_dropLast member⟩
      exact List.dropLast_cons_of_ne_nil (List.splitOn_ne_nil '&' more)
    · exact ⟨more.splitOn '&', rfl, fun part member => member⟩
  rcases later with ⟨rest, cutAs, within⟩
  unfold readParams at read
  rw [cutAs, List.foldlM_cons] at read
  rcases Option.bind_eq_some_iff.mp read with ⟨next, once, onward⟩
  have separator : (String.utf8EncodeChar '&').length = 1 := rfl
  have size : weight (first ++ '&' :: more) = weight first + (1 + weight more) := by
    rw [weight_append, weight_cons, separator]
  rcases foldlM_readParam_bound (fun part member => weight_of_mem_splitOn (within part member))
      onward other bytes found
    with here | short | translated
  · rcases readParam_eq_some once with ⟨word, meant, decoded, shape, isWord, nowhere, _, isMeant, sets⟩
    have same := (List.append_cons_inj_of_notMem isWord nowhere).mp shape.symm
    rcases sets other bytes here with before | set | translated
    · exact Or.inl before
    · refine Or.inr (Or.inl ?_)
      have short := (unescape_length isMeant).1
      rw [same.2.2] at short
      rw [set, size]
      omega
    · exact Or.inr (Or.inr translated)
  · refine Or.inr (Or.inl ?_)
    rw [size]
    omega
  · exact Or.inr (Or.inr translated)

/-- Credentials without separators of their own are found before the address. -/
theorem readText_credentials {user password : List Char} (userApart : '@' ∉ user ∧ '/' ∉ user ∧ ':' ∉ user)
    (passwordApart : '@' ∉ password ∧ '/' ∉ password) (address : List Char) :
    readText keywords (user ++ ':' :: (password ++ '@' :: address)) =
      (setPart "user" user unset).bind (fun settings =>
        (setPart "password" password settings).bind (readAddress keywords address)) := by
  have shape : user ++ ':' :: (password ++ '@' :: address) = (user ++ ':' :: password) ++ '@' :: address := by
    simp only [List.append_assoc, List.cons_append]
  have apart : forall char, char ∈ user ++ ':' :: password -> (char != '@' && char != '/') = true := by
    intro char member
    rw [Bool.and_eq_true, bne_iff_ne, bne_iff_ne]
    rcases List.mem_append.mp member with inUser | later
    · exact ⟨fun same => userApart.1 (same ▸ inUser), fun same => userApart.2.1 (same ▸ inUser)⟩
    · rcases List.mem_cons.mp later with rfl | inPassword
      · decide
      · exact ⟨fun same => passwordApart.1 (same ▸ inPassword), fun same => passwordApart.2 (same ▸ inPassword)⟩
  have name : forall char, char ∈ user -> (char != ':') = true := fun char member =>
    bne_iff_ne.mpr (fun same => userApart.2.2 (same ▸ member))
  unfold readText
  simp only
  rw [shape, List.takeWhile_append_of_pos apart, List.dropWhile_append_of_pos apart,
    List.takeWhile_cons_of_neg (by decide), List.dropWhile_cons_of_neg (by decide), List.append_nil]
  simp only
  rw [List.takeWhile_append_of_pos name, List.dropWhile_append_of_pos name,
    List.takeWhile_cons_of_neg (by decide), List.dropWhile_cons_of_neg (by decide), List.append_nil]
  rfl

theorem utf8_injective {first second : String} (same : utf8 first = utf8 second) : first = second :=
  Option.some.inj ((fromUTF8?_eq_some.mpr (show first.toList.flatMap _ = utf8 second from same)).symm.trans
    (fromUTF8?_eq_some.mpr rfl))

/-- A setting that is read as a text is that text. -/
theorem toDict_eq_some {dict : String -> Option String} (read : toDict keywords settings = some dict) {key : String}
    (listed : key ∈ keywords.listed) : settings key = (dict key).map utf8 := by
  unfold toDict at read
  split at read
  · rename_i valid
    cases read
    cases found : settings key with
    | none =>
        simp only [found]
        rfl
    | some bytes =>
        have readable := List.all_eq_true.mp valid key listed
        rw [found] at readable
        rcases Option.isSome_iff_exists.mp readable with ⟨text, decoded⟩
        simp only [found, Option.bind_some]
        rw [decoded, Option.map_some]
        exact congrArg some (fromUTF8?_eq_some.mp decoded).symm
  · cases read

/-- Settings that are texts are read as them. -/
theorem toDict_of_texts {texts : String -> Option String} (made : forall key, settings key = (texts key).map utf8) :
    toDict keywords settings = some texts := by
  have decoded : forall key, (settings key).bind (fun bytes => String.fromUTF8? ⟨bytes.toArray⟩) = texts key := by
    intro key
    rw [made]
    cases texts key with
    | none => rfl
    | some text => exact fromUTF8?_eq_some.mpr rfl
  unfold toDict
  rw [if_pos]
  · exact congrArg some (funext decoded)
  · apply List.all_eq_true.mpr
    intro key _
    rw [made]
    cases texts key with
    | none => rfl
    | some text => exact congrArg Option.isSome (fromUTF8?_eq_some.mpr (rfl : text.toList.flatMap _ = utf8 text))

def NulFree (settings : Settings) : Prop :=
  forall key bytes, settings key = some bytes -> 0 ∉ bytes

theorem nulFree_unset : NulFree unset := by
  intro key bytes found
  cases found

theorem NulFree.setPart (clean : NulFree settings) {key : String} {part : List Char} (apart : '\x00' ∉ part)
    (read : ConnectionUri.setPart key part settings = some after) : NulFree after := by
  unfold ConnectionUri.setPart at read
  split at read
  · cases read
    exact clean
  · rcases Option.map_eq_some_iff.mp read with ⟨set, decoded, rfl⟩
    intro other bytes found
    by_cases same : other = key
    · subst same
      rw [Function.update_self] at found
      cases found
      exact zero_not_mem_unescape decoded apart
    · rw [Function.update_of_ne same] at found
      exact clean other bytes found

theorem NulFree.foldlM_readParam (clean : NulFree settings) {parts : List (List Char)}
    (apart : forall part, part ∈ parts -> '\x00' ∉ part)
    (read : parts.foldlM (readParam keywords) settings = some after) : NulFree after := by
  induction parts generalizing settings with
  | nil =>
      cases read
      exact clean
  | cons part parts ih =>
      rw [List.foldlM_cons] at read
      rcases Option.bind_eq_some_iff.mp read with ⟨next, first, rest⟩
      apply ih _ (fun other member => apart other (List.mem_cons_of_mem _ member)) rest
      intro other bytes found
      rcases readParam_eq_some first with ⟨_, value, decoded, shape, _, _, _, isValue, sets⟩
      rcases sets other bytes found with before | set | translated | translated
      · exact clean other bytes before
      · rw [set]
        apply zero_not_mem_unescape isValue
        intro nul
        apply apart part List.mem_cons_self
        rw [shape]
        exact List.mem_append_right _ (List.mem_cons_of_mem _ nul)
      · rw [translated]
        decide
      · rw [translated]
        decide

theorem mem_of_mem_splitOn {separator char : Char} {text part : List Char} (member : part ∈ text.splitOn separator)
    (inside : char ∈ part) : char ∈ text := by
  induction text generalizing part with
  | nil =>
      rw [List.splitOn_nil] at member
      rw [List.mem_singleton.mp member] at inside
      exact inside
  | cons first text ih =>
      rw [List.splitOn_cons_eq_if_modifyHead] at member
      split at member
      · rcases List.mem_cons.mp member with rfl | later
        · exact absurd inside List.not_mem_nil
        · exact List.mem_cons_of_mem _ (ih later inside)
      · cases parts : text.splitOn separator with
        | nil => exact absurd parts (List.splitOn_ne_nil separator text)
        | cons head others =>
            rw [parts] at member
            rcases List.mem_cons.mp member with rfl | later
            · rcases List.mem_cons.mp inside with same | within
              · exact same ▸ List.mem_cons_self
              · exact List.mem_cons_of_mem _ (@ih head (by rw [parts]; exact List.mem_cons_self) within)
            · exact List.mem_cons_of_mem _ (ih (by rw [parts]; exact List.mem_cons_of_mem _ later) inside)

theorem NulFree.readParams (clean : NulFree settings) (apart : '\x00' ∉ query)
    (read : ConnectionUri.readParams keywords query settings = some after) : NulFree after :=
  clean.foldlM_readParam
    (fun _ member nul => apart (mem_of_mem_splitOn (mem_of_mem_segments member) nul)) read

/-- Hosts and ports are made of the text and of commas. -/
theorem mem_netlocs {place : Place} {text : List Char} {read : Netlocs} (found : netlocs place text = some read)
    {char : Char} (inside : char ∈ read.host ∨ char ∈ read.port) : char ∈ text ∨ char = ',' := by
  induction text generalizing place read with
  | nil =>
      unfold netlocs at found
      split at found
      · cases found
      · cases found
        exact inside.elim (fun member => absurd member List.not_mem_nil)
          (fun member => absurd member List.not_mem_nil)
  | cons first text ih =>
      have onward : char ∈ text ∨ char = ',' -> char ∈ first :: text ∨ char = ',' :=
        fun either => either.imp (List.mem_cons_of_mem _) id
      rw [netlocs_cons] at found
      cases move : place.move first with
      | toHost next =>
          rw [move] at found
          rcases Option.map_eq_some_iff.mp found with ⟨later, inner, rfl⟩
          rcases inside with host | port
          · rcases List.mem_cons.mp host with same | member
            · exact Or.inl (same ▸ List.mem_cons_self)
            · exact onward (ih inner (Or.inl member))
          · exact onward (ih inner (Or.inr port))
      | toPort =>
          rw [move] at found
          rcases Option.map_eq_some_iff.mp found with ⟨later, inner, rfl⟩
          rcases inside with host | port
          · exact onward (ih inner (Or.inl host))
          · rcases List.mem_cons.mp port with same | member
            · exact Or.inl (same ▸ List.mem_cons_self)
            · exact onward (ih inner (Or.inr member))
      | skip next =>
          rw [move] at found
          exact onward (ih found inside)
      | comma =>
          rw [move] at found
          rcases Option.map_eq_some_iff.mp found with ⟨later, inner, rfl⟩
          rcases inside with host | port
          · rcases List.mem_cons.mp host with same | member
            · exact Or.inr same
            · exact onward (ih inner (Or.inl member))
          · rcases List.mem_cons.mp port with same | member
            · exact Or.inr same
            · exact onward (ih inner (Or.inr member))
      | stop =>
          rw [move] at found
          cases found
          exact inside.elim (fun member => absurd member List.not_mem_nil)
            (fun member => absurd member List.not_mem_nil)
      | fail =>
          rw [move] at found
          cases found

theorem NulFree.readAddress (clean : NulFree settings) {address : List Char} (apart : '\x00' ∉ address)
    (read : ConnectionUri.readAddress keywords address settings = some after) : NulFree after := by
  rcases Option.bind_eq_some_iff.mp read with ⟨netloc, found, rest⟩
  rcases Option.bind_eq_some_iff.mp rest with ⟨withHost, host, rest⟩
  rcases Option.bind_eq_some_iff.mp rest with ⟨withPort, port, path⟩
  have noNul : forall {char : Char}, char = '\x00' -> char ∈ address ∨ char = ',' -> False := by
    rintro char rfl (inside | same)
    · exact apart inside
    · exact absurd same (by decide)
  have first := clean.setPart (fun nul => noNul rfl (mem_netlocs found (Or.inl nul))) host
  have second := first.setPart (fun nul => noNul rfl (mem_netlocs found (Or.inr nul))) port
  have left : '\x00' ∉ netloc.rest := fun nul => apart ((rest_suffix found).subset nul)
  unfold readPath at path
  split at path
  · rename_i tail same
    rw [same] at left
    have tailClean : '\x00' ∉ tail := fun nul => left (List.mem_cons_of_mem _ nul)
    rcases Option.bind_eq_some_iff.mp path with ⟨withName, name, query⟩
    have third := second.setPart (fun nul => tailClean (List.takeWhile_sublist _ |>.subset nul)) name
    exact third.readParams
      (fun nul => tailClean ((List.dropWhile_sublist _).subset ((List.drop_sublist 1 _).subset nul))) query
  · rename_i query same
    rw [same] at left
    exact second.readParams (fun nul => left (List.mem_cons_of_mem _ nul)) path
  · cases path
    exact second

theorem NulFree.of_readText {text : List Char} (apart : '\x00' ∉ text)
    (read : readText keywords text = some after) : NulFree after := by
  unfold readText at read
  simp only at read
  split at read
  · rename_i address found
    have credentials : '\x00' ∉ text.takeWhile (fun char => char != '@' && char != '/') :=
      fun nul => apart ((List.takeWhile_sublist _).subset nul)
    have behind : '\x00' ∉ address := by
      intro nul
      apply apart
      apply (List.dropWhile_sublist (fun char => char != '@' && char != '/')).subset
      rw [found]
      exact List.mem_cons_of_mem _ nul
    rcases Option.bind_eq_some_iff.mp read with ⟨withUser, user, rest⟩
    rcases Option.bind_eq_some_iff.mp rest with ⟨withPassword, password, onward⟩
    have first := nulFree_unset.setPart
      (fun nul => credentials ((List.takeWhile_sublist (fun char => char != ':')).subset nul)) user
    have second := first.setPart
      (fun nul => credentials ((List.dropWhile_sublist (fun char => char != ':')).subset
        ((List.drop_sublist 1 _).subset nul))) password
    exact second.readAddress behind onward
  · exact nulFree_unset.readAddress apart read

/-- No text that is read from a URI has a NUL. -/
theorem readUri_nulFree {scheme dsn key text : String} {dict : String -> Option String}
    (read : readUri keywords scheme dsn = some dict) (listed : key ∈ keywords.listed) (found : dict key = some text) :
    '\x00' ∉ text.toList := by
  rcases Option.bind_eq_some_iff.mp read with ⟨settings, parsed, decoded⟩
  have apart : '\x00' ∉ (dsn.toList.takeWhile (fun char => char != '\x00')).drop scheme.length := by
    intro nul
    have kept := List.all_eq_true.mp List.all_takeWhile _ ((List.drop_sublist _ _).subset nul)
    exact absurd kept (by decide)
  have bytes := toDict_eq_some decoded listed
  rw [found] at bytes
  have clean := NulFree.of_readText apart parsed key (utf8 text) bytes
  exact fun nul => clean (List.mem_flatMap.mpr ⟨_, nul, List.mem_cons_self⟩)

end ConnectionUri
end WarehouseSync

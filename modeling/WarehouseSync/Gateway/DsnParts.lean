import WarehouseSync.Gateway.StoredSecrets
import WarehouseSync.Library.ConnectionUri
import WarehouseSync.Library.PythonText

namespace WarehouseSync
namespace DsnParts

open ConnectionUri PercentEncoding
open App (quote ConnectionIn)
open StoredSecrets (toList_quote unreserved not_mem_quote)

/-!
# DSNs and their parts (`common/config_store.py`)

A connection is stored as one DSN.  `build_dsn` quotes the user and the password
and writes the other parts as they are; `parse_dsn` leaves the reading to libpq,
and gives blank parts when that raises.
-/

/-- The parts of a DSN as the form of the gateway has them.  A part is never
missing, only empty. -/
structure Parts where
  dbHost : String
  dbPort : Int
  dbName : String
  dbUser : String
  dbPassword : String
  dbSslmode : String
deriving DecidableEq, Repr

/-- The DSN of some parts.  Only the user and the password are quoted, so the others
have to be free of the characters of the grammar. -/
def buildDsn (parts : Parts) : String :=
  "postgresql://" ++ quote parts.dbUser ++ ":" ++ quote parts.dbPassword ++ "@" ++ parts.dbHost ++
    ":" ++ toString parts.dbPort ++ "/" ++ parts.dbName ++ "?sslmode=" ++ parts.dbSslmode

/-- What `parse_dsn` starts from. -/
def blank : Parts :=
  { dbHost := "", dbPort := 5432, dbName := "", dbUser := "", dbPassword := "", dbSslmode := "require" }

/-- `value or default`. -/
def orDefault (value : Option String) (default : String) : String :=
  match value with
  | none => default
  | some text => if text = "" then default else text

/-- `int(d.get("port") or 5432)`.  A text that is no integer raises, and then
nothing of the DSN is reported. -/
def readPort (value : Option String) : Option Int :=
  match value with
  | none => some 5432
  | some text => if text = "" then some 5432 else PythonText.readInt text.toList

/-- psycopg's `conninfo_to_dict`; `none` says that it raises.  It is a parameter,
since the reading is done by libpq. -/
abbrev ConninfoToDict := String -> Option (String -> Option String)

def readParts (dict : String -> Option String) : Option Parts :=
  (readPort (dict "port")).map (fun port =>
    { dbHost := orDefault (dict "host") "", dbPort := port, dbName := orDefault (dict "dbname") ""
      dbUser := orDefault (dict "user") "", dbPassword := orDefault (dict "password") ""
      dbSslmode := orDefault (dict "sslmode") "require" })

/-- The parts of a DSN for the form.  An exception leaves all parts blank, so what
cannot be read is shown as if nothing were stored. -/
def parseDsn (conninfo : ConninfoToDict) (dsn : Option String) : Parts :=
  match dsn with
  | none => blank
  | some text => if text = "" then blank else ((conninfo text).bind readParts).getD blank

/-- The DSN built anew from its parts.  One without a host is left alone, because
its parts may have come from an exception. -/
def normalizeDsn (conninfo : ConninfoToDict) (dsn : Option String) : Option String :=
  match dsn with
  | none => none
  | some text =>
      if text = "" then some text
      else if (parseDsn conninfo (some text)).dbHost = "" then some text
      else some (buildDsn (parseDsn conninfo (some text)))

/-- The parts that a request brings. -/
def partsOf (body : ConnectionIn) (password : String) : Parts :=
  { dbHost := body.dbHost.getD "", dbPort := body.dbPort, dbName := body.dbName.getD ""
    dbUser := body.dbUser.getD "", dbPassword := password, dbSslmode := body.dbSslmode }

/-- The DSN that the endpoints store is built from these parts. -/
theorem buildDsn_partsOf (body : ConnectionIn) (password : String) :
    App.buildDsn body password = buildDsn (partsOf body password) := rfl

/-- psycopg reads a URI by the grammar of libpq.  Of other forms of a DSN nothing is
assumed. -/
def ReadsUris (keywords : Keywords) (conninfo : ConninfoToDict) : Prop :=
  forall dsn : String, "postgresql://".toList.isPrefixOf dsn.toList = true ->
    conninfo dsn = readUri keywords "postgresql://" dsn

/-- The parts that are not quoted have no character of the grammar where it would be
read as such, nor an escape.  Each part is followed by another delimiter, so each
has its own characters to avoid. -/
structure ReadableAddress (host name sslmode : String) : Prop where
  plain : forall char, char ∈ host.toList -> Plain char ∧ char ≠ '%'
  unbracketed : host.toList.head? ≠ some '['
  name : forall char, char ∈ name.toList -> char ≠ '?' ∧ char ≠ '%'
  given : sslmode ≠ ""
  value : forall char, char ∈ sslmode.toList -> char ≠ '&' ∧ char ≠ '=' ∧ char ≠ '%'

def Parts.texts (parts : Parts) : List String :=
  [parts.dbHost, parts.dbName, parts.dbUser, parts.dbPassword, parts.dbSslmode]

/-- The parts that are read back.  No text has the character of code 0, at which
libpq ends its reading. -/
structure Readable (parts : Parts) : Prop where
  address : ReadableAddress parts.dbHost parts.dbName parts.dbSslmode
  nulFree : forall text, text ∈ parts.texts -> '\x00' ∉ text.toList

theorem toList_toString (port : Int) : (toString port).toList = DecimalText.intText port := by
  rw [Int.toString_eq_repr]
  cases port with
  | ofNat value =>
      change (Nat.repr value).toList = _
      rw [Nat.toList_repr]
      rfl
  | negSucc value =>
      change ("-" ++ Nat.repr (value + 1)).toList = _
      rw [String.toList_append, Nat.toList_repr]
      rfl

/-- The characters of a port. -/
theorem port_char {port : Int} {char : Char} (member : char ∈ (toString port).toList) :
    char.isDigit = true ∨ char = '-' := by
  rw [toList_toString] at member
  have digits : forall {value : Nat}, char ∈ Nat.toDigits 10 value -> char.isDigit = true :=
    fun member => Nat.isDigit_of_mem_toDigits (by decide) (by decide) member
  cases port with
  | ofNat value => exact Or.inl (digits member)
  | negSucc value =>
      rcases List.mem_cons.mp member with sign | digit
      · exact Or.inr sign
      · exact Or.inl (digits digit)

theorem ne_of_port_char {port : Int} {char other : Char} (member : char ∈ (toString port).toList)
    (foreign : other.isDigit = false ∧ other ≠ '-') : char ≠ other := by
  intro same
  rcases port_char member with digit | sign
  · rw [same, foreign.1] at digit
    cases digit
  · exact foreign.2 (same.symm.trans sign)

theorem readInt_toString (port : Int) : PythonText.readInt (toString port).toList = some port := by
  rw [toList_toString, PythonText.readInt_intText]

/-- A comma is in no integer. -/
theorem comma_not_mem_of_readInt {text : List Char} {value : Int} (read : PythonText.readInt text = some value) :
    ',' ∉ text :=
  fun comma => absurd (PythonText.numeric_of_readInt read comma) (by decide)

variable {keywords : Keywords}

/-- A text is set unless it is blank. -/
def withText (key text : String) (texts : String -> Option String) : String -> Option String :=
  if text = "" then texts else Function.update texts key (some text)

theorem withText_self {key : String} {texts : String -> Option String} (missing : texts key = none)
    (text default : String) (blankIs : text = "" -> default = "") :
    orDefault (withText key text texts key) default = text := by
  unfold withText orDefault
  by_cases empty : text = ""
  · rw [if_pos empty, missing]
    exact (blankIs empty).trans empty.symm
  · rw [if_neg empty, Function.update_self]
    exact if_neg empty

theorem withText_of_ne {key other : String} (different : other ≠ key) (text : String)
    (texts : String -> Option String) : withText key text texts other = texts other := by
  unfold withText
  split
  · rfl
  · exact Function.update_of_ne different (some text) texts

/-- The settings are the UTF-8 of these texts. libpq works with bytes, while the
parts are texts, so both views of a setting are needed. -/
def Holds (settings : Settings) (texts : String -> Option String) : Prop :=
  forall key, settings key = (texts key).map utf8

theorem Holds.update {settings : Settings} {texts : String -> Option String} (holds : Holds settings texts)
    (key text : String) :
    Holds (Function.update settings key (some (utf8 text))) (Function.update texts key (some text)) := by
  intro other
  by_cases same : other = key
  · rw [same, Function.update_self, Function.update_self]
    rfl
  · rw [Function.update_of_ne same, Function.update_of_ne same]
    exact holds other

theorem utf8_eq_nil {text : String} : utf8 text = [] ↔ text = "" :=
  ⟨fun empty => utf8_injective empty, fun empty => empty ▸ rfl⟩

/-- A part whose characters read as a text sets that text. -/
theorem setPart_of_unescape {part : List Char} {text : String} (read : unescape part = some (utf8 text))
    {settings : Settings} {texts : String -> Option String} (holds : Holds settings texts) (key : String) :
    Exists fun after : Settings => setPart key part settings = some after ∧
      Holds after (withText key text texts) := by
  unfold setPart withText
  by_cases empty : part = []
  · subst empty
    have blankText : text = "" := utf8_eq_nil.mp (Option.some.inj read).symm
    exact ⟨settings, if_pos rfl, by rw [if_pos blankText]; exact holds⟩
  · rw [if_neg empty, read]
    have given : text ≠ "" := by
      rintro rfl
      have longer : 0 < (utf8 "").length := by
        cases part with
        | nil => exact absurd rfl empty
        | cons char rest =>
            have nonempty := unescape_cons_ne_nil read
            exact List.length_pos_of_ne_nil nonempty
      exact absurd longer (by decide)
    exact ⟨_, rfl, by rw [if_neg given]; exact holds.update key text⟩

/-- What stands after the `@`. -/
def addressText (host : String) (port : List Char) (name sslmode : String) : List Char :=
  host.toList ++ ':' :: (port ++ '/' :: (name.toList ++ '?' :: ("sslmode".toList ++ '=' :: sslmode.toList)))

def Parts.address (parts : Parts) : List Char :=
  addressText parts.dbHost (toString parts.dbPort).toList parts.dbName parts.dbSslmode

theorem toList_buildDsn (parts : Parts) : (buildDsn parts).toList = "postgresql://".toList ++
    ((quote parts.dbUser).toList ++ ':' :: ((quote parts.dbPassword).toList ++ '@' :: parts.address)) := by
  have query : "?sslmode=".toList = '?' :: ("sslmode".toList ++ ['=']) := by decide
  have colon : ":".toList = [':'] := by decide
  have atSign : "@".toList = ['@'] := by decide
  have slash : "/".toList = ['/'] := by decide
  unfold buildDsn Parts.address addressText
  simp only [String.toList_append, query, colon, atSign, slash, List.append_assoc, List.cons_append, List.nil_append]

theorem nul_not_mem_quote (text : String) : '\x00' ∉ (quote text).toList :=
  not_mem_quote (by decide) (by decide) (by decide) text

/-- Without a NUL in its parts, the whole DSN is read. -/
theorem readUri_buildDsn {parts : Parts} (clean : forall text, text ∈ parts.texts -> '\x00' ∉ text.toList) :
    readUri keywords "postgresql://" (buildDsn parts) =
      ((setPart "user" (quote parts.dbUser).toList unset).bind (fun settings =>
        (setPart "password" (quote parts.dbPassword).toList settings).bind
          (readAddress keywords parts.address))).bind (toDict keywords) := by
  have address : '\x00' ∉ parts.address := by
    unfold Parts.address addressText
    simp only [List.mem_append, List.mem_cons, not_or]
    refine ⟨clean _ (by simp [Parts.texts]), by decide, ?_, by decide, clean _ (by simp [Parts.texts]), by decide,
      by decide, by decide, clean _ (by simp [Parts.texts])⟩
    exact fun member => ne_of_port_char member ⟨by decide, by decide⟩ rfl
  have whole : '\x00' ∉ (buildDsn parts).toList := by
    rw [toList_buildDsn]
    simp only [List.mem_append, List.mem_cons, not_or]
    exact ⟨by decide, nul_not_mem_quote _, by decide, nul_not_mem_quote _, by decide, address⟩
  have untouched : (buildDsn parts).toList.takeWhile (fun char => char != '\x00') = (buildDsn parts).toList := by
    have all := @List.takeWhile_append_of_pos _ (fun char => char != '\x00') (buildDsn parts).toList []
      (fun char member => bne_iff_ne.mpr (fun same => whole (same ▸ member)))
    rwa [List.append_nil, List.takeWhile_nil, List.append_nil] at all
  have quoted : forall {separator : Char}, unreserved separator = false -> separator ≠ '%' ->
      (forall value : Fin 16, separator ≠ hexDigit value) -> forall text : String, separator ∉ (quote text).toList :=
    fun reserved other noDigit text => not_mem_quote reserved other noDigit text
  unfold readUri
  rw [untouched, toList_buildDsn]
  have dropped : ("postgresql://".toList ++
      ((quote parts.dbUser).toList ++ ':' :: ((quote parts.dbPassword).toList ++ '@' :: parts.address))).drop
        "postgresql://".length =
      (quote parts.dbUser).toList ++ ':' :: ((quote parts.dbPassword).toList ++ '@' :: parts.address) := rfl
  rw [dropped, readText_credentials]
  · exact ⟨quoted (by decide) (by decide) (by decide) _, quoted (by decide) (by decide) (by decide) _,
      quoted (by decide) (by decide) (by decide) _⟩
  · exact ⟨quoted (by decide) (by decide) (by decide) _, quoted (by decide) (by decide) (by decide) _⟩

theorem unescape_quote {text : String} (clean : '\x00' ∉ text.toList) :
    unescape (quote text).toList = some (utf8 text) := by
  rw [toList_quote]
  apply unescapeText_eq_some.mp
  rw [unescapeText_encode (by decide) (by decide), if_neg clean]

/-! ## Readable parts are read back -/

/-- Up to the credentials, the settings are the texts. -/
theorem credentials_hold {user password : String} (userClean : '\x00' ∉ user.toList)
    (passwordClean : '\x00' ∉ password.toList) :
    Exists fun named : Settings => Exists fun settings : Settings =>
      setPart "user" (quote user).toList unset = some named ∧
        setPart "password" (quote password).toList named = some settings ∧
        Holds settings (withText "password" password (withText "user" user (fun _ => none))) := by
  have nothing : Holds unset (fun _ => none) := fun _ => rfl
  rcases setPart_of_unescape (unescape_quote userClean) nothing "user" with ⟨named, first, holdsUser⟩
  rcases setPart_of_unescape (unescape_quote passwordClean) holdsUser "password" with ⟨settings, second, holds⟩
  exact ⟨named, settings, first, second, holds⟩

theorem readAddress_of_readable {host name sslmode : String} (readable : ReadableAddress host name sslmode)
    (port : Int) {settings : Settings} {texts : String -> Option String} (holds : Holds settings texts) :
    Exists fun after : Settings =>
      readAddress keywords (addressText host (toString port).toList name sslmode) settings = some after ∧
        Holds after (Function.update (withText "dbname" name (withText "port" (toString port)
          (withText "host" host texts))) "sslmode" (some sslmode)) := by
  have portPlain : '%' ∉ (toString port).toList := fun member =>
    ne_of_port_char member ⟨by decide, by decide⟩ rfl
  have portClean : forall char, char ∈ (toString port).toList -> char ≠ ',' ∧ char ≠ '/' ∧ char ≠ '?' :=
    fun char member => ⟨ne_of_port_char member ⟨by decide, by decide⟩,
      ne_of_port_char member ⟨by decide, by decide⟩, ne_of_port_char member ⟨by decide, by decide⟩⟩
  have located : netlocs .start (addressText host (toString port).toList name sslmode) =
      some ⟨host.toList, (toString port).toList,
        '/' :: (name.toList ++ '?' :: ("sslmode".toList ++ '=' :: sslmode.toList))⟩ :=
    netlocs_address (fun char member => (readable.plain char member).1) readable.unbracketed portClean _
  rcases setPart_of_unescape (unescape_plain (fun member => (readable.plain '%' member).2 rfl)) holds "host" with
    ⟨withHost, first, holdsHost⟩
  rcases setPart_of_unescape (unescape_plain portPlain) holdsHost "port" with ⟨withPort, second, holdsPort⟩
  rcases setPart_of_unescape (unescape_plain (fun member => (readable.name '%' member).2 rfl)) holdsPort "dbname" with
    ⟨withName, third, holdsName⟩
  have noMark : forall char, char ∈ name.toList -> (char != '?') = true := fun char member =>
    bne_iff_ne.mpr (readable.name char member).1
  refine ⟨_, ?_, holdsName.update "sslmode" sslmode⟩
  unfold readAddress
  rw [located, Option.bind_some, first, Option.bind_some, second, Option.bind_some]
  unfold readPath
  simp only
  rw [List.takeWhile_append_of_pos noMark, List.dropWhile_append_of_pos noMark,
    List.takeWhile_cons_of_neg (by decide), List.dropWhile_cons_of_neg (by decide), List.append_nil, third,
    Option.bind_some, List.drop_one, List.tail_cons,
    readParams_single (keywords.basic "sslmode" (by decide)) (by decide) (by decide) withName
      (fun member => (readable.value '&' member).1 rfl),
    if_neg (fun member => (readable.value '=' member).2.1 rfl),
    unescape_plain (fun member => (readable.value '%' member).2.2 rfl)]
  rfl

/-- What libpq reports of readable parts.  Blank parts are not reported, and
`parse_dsn` puts its defaults there. -/
def Parts.dict (parts : Parts) : String -> Option String :=
  Function.update (withText "dbname" parts.dbName (withText "port" (toString parts.dbPort)
    (withText "host" parts.dbHost (withText "password" parts.dbPassword (withText "user" parts.dbUser
      (fun _ => none)))))) "sslmode" (some parts.dbSslmode)

theorem toString_ne_empty (port : Int) : toString port ≠ "" := by
  intro empty
  have back := readInt_toString port
  rw [empty] at back
  cases back

theorem dict_port (parts : Parts) : readPort (parts.dict "port") = some parts.dbPort := by
  unfold Parts.dict
  rw [Function.update_of_ne (by decide), withText_of_ne (by decide)]
  unfold withText
  rw [if_neg (toString_ne_empty _), Function.update_self]
  unfold readPort
  simp only
  rw [readInt_toString, if_neg (toString_ne_empty _)]

theorem dict_host (parts : Parts) : orDefault (parts.dict "host") "" = parts.dbHost := by
  unfold Parts.dict
  rw [Function.update_of_ne (by decide), withText_of_ne (by decide), withText_of_ne (by decide)]
  apply withText_self _ _ _ (fun _ => rfl)
  rw [withText_of_ne (by decide), withText_of_ne (by decide)]

theorem dict_name (parts : Parts) : orDefault (parts.dict "dbname") "" = parts.dbName := by
  unfold Parts.dict
  rw [Function.update_of_ne (by decide)]
  apply withText_self _ _ _ (fun _ => rfl)
  rw [withText_of_ne (by decide), withText_of_ne (by decide), withText_of_ne (by decide), withText_of_ne (by decide)]

theorem dict_user (parts : Parts) : orDefault (parts.dict "user") "" = parts.dbUser := by
  unfold Parts.dict
  rw [Function.update_of_ne (by decide), withText_of_ne (by decide), withText_of_ne (by decide),
    withText_of_ne (by decide), withText_of_ne (by decide)]
  exact withText_self rfl _ _ (fun _ => rfl)

theorem dict_password (parts : Parts) : orDefault (parts.dict "password") "" = parts.dbPassword := by
  unfold Parts.dict
  rw [Function.update_of_ne (by decide), withText_of_ne (by decide), withText_of_ne (by decide),
    withText_of_ne (by decide)]
  apply withText_self _ _ _ (fun _ => rfl)
  rw [withText_of_ne (by decide)]

/-- The texts of readable parts give the parts. -/
theorem readParts_dict (parts : Parts) (given : parts.dbSslmode ≠ "") : readParts parts.dict = some parts := by
  have sslmode : orDefault (parts.dict "sslmode") "require" = parts.dbSslmode := by
    unfold Parts.dict
    rw [Function.update_self]
    exact if_neg given
  unfold readParts
  rw [dict_port, dict_host, dict_name, dict_user, dict_password, sslmode, Option.map_some]

theorem buildDsn_ne_empty (parts : Parts) : buildDsn parts ≠ "" := by
  intro empty
  have text := toList_buildDsn parts
  rw [empty] at text
  cases text

/-- psycopg reads a built DSN by the grammar. -/
theorem conninfo_buildDsn {conninfo : ConninfoToDict} (laws : ReadsUris keywords conninfo) (parts : Parts) :
    conninfo (buildDsn parts) = readUri keywords "postgresql://" (buildDsn parts) := by
  apply laws
  rw [toList_buildDsn]
  exact List.isPrefixOf_iff_prefix.mpr (List.prefix_append _ _)

theorem parse_of_readable {conninfo : ConninfoToDict} (laws : ReadsUris keywords conninfo) {parts : Parts}
    (readable : Readable parts) : parseDsn conninfo (some (buildDsn parts)) = parts := by
  rcases credentials_hold (readable.nulFree parts.dbUser (by simp [Parts.texts]))
    (readable.nulFree parts.dbPassword (by simp [Parts.texts])) with ⟨named, settings, first, second, holds⟩
  rcases @readAddress_of_readable keywords _ _ _ readable.address parts.dbPort settings _ holds with
    ⟨after, read, holdsAfter⟩
  have reported : Holds after parts.dict := holdsAfter
  unfold parseDsn
  simp only
  rw [if_neg (buildDsn_ne_empty parts), conninfo_buildDsn laws, readUri_buildDsn readable.nulFree, first,
    Option.bind_some, second, Option.bind_some]
  unfold Parts.address
  rw [read, Option.bind_some, toDict_of_texts reported, Option.bind_some,
    readParts_dict parts readable.address.given, Option.getD_some]

/-! ## Only readable parts are read back -/

/-- The value that `parse_dsn` takes for the mode, as bytes.  An empty mode is read
as the default, so it does not come back. -/
def modeBytes (settings : Settings) : List UInt8 :=
  match settings "sslmode" with
  | none => utf8 "require"
  | some bytes => if bytes = [] then utf8 "require" else bytes

/-- A mode that is neither written as it is nor a translated one cannot come back. -/
theorem mode_of_short {after : Settings} {sslmode : String}
    (short : forall bytes, after "sslmode" = some bytes -> bytes.length < weight sslmode.toList ∨ Translated bytes)
    (same : modeBytes after = utf8 sslmode) : sslmode = "require" ∨ sslmode = "prefer" := by
  unfold modeBytes at same
  cases found : after "sslmode" with
  | none =>
      rw [found] at same
      exact Or.inl (utf8_injective same.symm)
  | some bytes =>
      rw [found] at same
      simp only at same
      split at same
      · exact Or.inl (utf8_injective same.symm)
      · rcases short bytes found with less | required | preferred
        · rw [same] at less
          exact absurd less (Nat.lt_irrefl _)
        · exact Or.inl (utf8_injective (same.symm.trans required))
        · exact Or.inr (utf8_injective (same.symm.trans preferred))

theorem not_mem_of_mode {sslmode : String} (mode : sslmode = "require" ∨ sslmode = "prefer") {char : Char}
    (foreign : char ∉ "requireprefer".toList) : char ∉ sslmode.toList := by
  intro member
  apply foreign
  rcases mode with rfl | rfl
  · exact List.mem_append_left "prefer".toList member
  · exact List.mem_append_right "require".toList member

theorem setPart_of_ne {key other : String} (different : other ≠ key) {part : List Char} {settings after : Settings}
    (read : setPart key part settings = some after) : after other = settings other := by
  unfold setPart at read
  split at read
  · cases read
    rfl
  · rcases Option.map_eq_some_iff.mp read with ⟨bytes, _, rfl⟩
    exact Function.update_of_ne different (some bytes) settings

/-- What a part was read as, also if it is blank. -/
theorem unescape_of_setPart {key : String} {part : List Char} {settings after : Settings}
    (missing : settings key = none) (read : setPart key part settings = some after) :
    unescape part = some ((after key).getD []) := by
  unfold setPart at read
  split at read
  · rename_i empty
    cases read
    rw [empty, missing]
    rfl
  · rcases Option.map_eq_some_iff.mp read with ⟨bytes, decoded, rfl⟩
    rw [decoded, Function.update_self]
    rfl

theorem weight_takeWhile_lt {p : Char -> Bool} {chars : List Char} {char : Char} (member : char ∈ chars)
    (stops : p char = false) : weight (chars.takeWhile p) < weight chars := by
  have parts := @List.takeWhile_append_dropWhile _ p chars
  cases rest : chars.dropWhile p with
  | nil =>
      rw [rest, List.append_nil] at parts
      rw [<- parts] at member
      have kept := List.all_eq_true.mp List.all_takeWhile char member
      rw [stops] at kept
      cases kept
  | cons first others =>
      have whole : weight chars = weight (chars.takeWhile p) + weight (first :: others) := by
        rw [<- weight_append, <- rest, parts]
      have size := utf8EncodeChar_length_pos first
      rw [weight_cons] at whole
      omega

theorem takeWhile_stop {p : Char -> Bool} {stop : Char} (stops : p stop = false) (front back : List Char) :
    (front ++ stop :: back).takeWhile p = front.takeWhile p := by
  rw [List.takeWhile_append]
  split
  · rename_i whole
    rw [List.takeWhile_cons_of_neg (by rw [stops]; exact Bool.false_ne_true), List.append_nil]
    exact (List.takeWhile_prefix p |>.eq_of_length whole).symm
  · rfl

/-- A text that is read as itself has no escape. -/
theorem percent_not_mem {text : String} (read : unescape text.toList = some (utf8 text)) : '%' ∉ text.toList :=
  (unescapeText_self_iff text).mp (unescapeText_eq_some.mpr read)

/-- The query that a built DSN ends with. -/
def modeQuery (sslmode : String) : List Char :=
  "sslmode".toList ++ '=' :: sslmode.toList

/-- The mode comes back only if the query is read from its start, and the mode is
plain. -/
theorem mode_of_readParams {sslmode : String} {settings after : Settings} (missing : settings "sslmode" = none)
    (read : readParams keywords (modeQuery sslmode) settings = some after)
    (same : modeBytes after = utf8 sslmode) :
    sslmode ≠ "" ∧ (forall char, char ∈ sslmode.toList -> char ≠ '&' ∧ char ≠ '=' ∧ char ≠ '%') ∧
      forall key, key ≠ "sslmode" -> after key = settings key := by
  have alone : '&' ∉ sslmode.toList := by
    intro cut
    have mode := mode_of_short (fun bytes found => by
      rcases readParams_cut (by decide) cut read "sslmode" bytes found with before | short | translated
      · rw [missing] at before
        cases before
      · exact Or.inl short
      · exact Or.inr translated) same
    exact not_mem_of_mode mode (by decide) cut
  unfold modeQuery at read
  rw [readParams_single (keywords.basic "sslmode" (by decide)) (by decide) (by decide) settings alone] at read
  split at read
  · cases read
  · rename_i once
    rcases Option.map_eq_some_iff.mp read with ⟨bytes, decoded, rfl⟩
    have shown : (if bytes = [] then utf8 "require" else bytes) = utf8 sslmode := by
      unfold modeBytes at same
      rw [Function.update_self] at same
      exact same
    have given : bytes ≠ [] := by
      intro empty
      rw [if_pos empty] at shown
      have required : sslmode = "require" := utf8_injective shown.symm
      rw [required, empty] at decoded
      exact unescape_cons_ne_nil decoded rfl
    rw [if_neg given] at shown
    rw [shown] at decoded
    refine ⟨?_, fun char member => ⟨?_, ?_, ?_⟩, ?_⟩
    · rintro rfl
      exact given shown
    · exact fun cut => alone (cut ▸ member)
    · exact fun separated => once (separated ▸ member)
    · exact fun escaped => percent_not_mem decoded (escaped ▸ member)
    · exact fun key different => Function.update_of_ne different _ settings

/-- With the query of a built DSN left, the path before it has no question mark. -/
theorem readPath_query {part : List Char} {sslmode : String} {settings after : Settings}
    (read : readPath keywords (part ++ '?' :: modeQuery sslmode) settings = some after)
    (head : part = [] ∨ (Exists fun tail : List Char => part = '/' :: tail) ∨
      Exists fun tail : List Char => part = '?' :: tail) :
    (part = [] ∧ readParams keywords (modeQuery sslmode) settings = some after) ∨
      Exists fun path : List Char => Exists fun withName : Settings => part = '/' :: path ∧ '?' ∉ path ∧
        setPart "dbname" path settings = some withName ∧
        readParams keywords (modeQuery sslmode) withName = some after := by
  have marked : forall (front : List Char) (settings : Settings),
      readParams keywords (front ++ '?' :: modeQuery sslmode) settings = none :=
    fun front settings => readParams_mark settings (by decide) front sslmode.toList
  rcases head with rfl | ⟨path, rfl⟩ | ⟨query, rfl⟩
  · exact Or.inl ⟨rfl, read⟩
  · have noMark : '?' ∉ path := by
      intro mark
      rcases List.eq_append_cons_of_mem mark with ⟨front, back, rfl, absent⟩
      have kept : forall char, char ∈ front -> (char != '?') = true := fun char member =>
        bne_iff_ne.mpr (fun same => absent (same ▸ member))
      unfold readPath at read
      simp only [List.cons_append, List.append_assoc] at read
      rw [List.takeWhile_append_of_pos kept, List.dropWhile_append_of_pos kept,
        List.takeWhile_cons_of_neg (by decide), List.dropWhile_cons_of_neg (by decide)] at read
      rcases Option.bind_eq_some_iff.mp read with ⟨withName, _, onward⟩
      rw [List.drop_one, List.tail_cons, marked] at onward
      cases onward
    have kept : forall char, char ∈ path -> (char != '?') = true := fun char member =>
      bne_iff_ne.mpr (fun same => noMark (same ▸ member))
    unfold readPath at read
    simp only [List.cons_append] at read
    rw [List.takeWhile_append_of_pos kept, List.dropWhile_append_of_pos kept,
      List.takeWhile_cons_of_neg (by decide), List.dropWhile_cons_of_neg (by decide), List.append_nil] at read
    rcases Option.bind_eq_some_iff.mp read with ⟨withName, named, onward⟩
    exact Or.inr ⟨path, withName, rfl, noMark, named, onward⟩
  · unfold readPath at read
    simp only [List.cons_append] at read
    rw [marked] at read
    cases read

/-- A query that is left inside the mode sets too little. -/
theorem readPath_bound {rest : List Char} {settings after : Settings} (missing : settings "sslmode" = none)
    (read : readPath keywords rest settings = some after) (bytes : List UInt8)
    (found : after "sslmode" = some bytes) : bytes.length ≤ weight rest ∨ Translated bytes := by
  have drop : forall chars : List Char,
      weight ((chars.dropWhile (fun char => char != '?')).drop 1) ≤ weight chars := by
    intro chars
    have parts := @List.takeWhile_append_dropWhile _ (fun char : Char => char != '?') chars
    have sum : weight chars = weight (chars.takeWhile (fun char => char != '?')) +
        weight (chars.dropWhile (fun char => char != '?')) := by
      rw [<- weight_append, parts]
    cases behind : chars.dropWhile (fun char => char != '?') with
    | nil => exact Nat.zero_le _
    | cons first others =>
        rw [behind, weight_cons] at sum
        rw [List.drop_one, List.tail_cons]
        omega
  unfold readPath at read
  split at read
  · rename_i path
    rcases Option.bind_eq_some_iff.mp read with ⟨withName, named, onward⟩
    rcases readParams_bound onward "sslmode" bytes found with before | short | translated
    · rw [setPart_of_ne (by decide) named, missing] at before
      cases before
    · refine Or.inl ?_
      have less := drop path
      rw [weight_cons]
      omega
    · exact Or.inr translated
  · rename_i query
    rcases readParams_bound read "sslmode" bytes found with before | short | translated
    · rw [missing] at before
      cases before
    · refine Or.inl ?_
      rw [weight_cons]
      omega
    · exact Or.inr translated
  · cases read
    rw [missing] at found
    cases found

/-- A host in brackets does not come back: it ends before the last bracket, or it
takes the beginning of the name with it. -/
theorem bracketed_lost {host name sslmode : String} {port : Int} {tail part : List Char} {read : Netlocs}
    (bracketed : host.toList = '[' :: tail)
    (found : netlocs .opened
      (tail ++ ':' :: ((toString port).toList ++ '/' :: (name.toList ++ '?' :: modeQuery sslmode))) =
      some read)
    (single : ',' ∉ read.port) (isHost : unescape read.host = some (utf8 host))
    (left : read.rest = part ++ '?' :: modeQuery sslmode) : weight part < weight name.toList := by
  rcases host_of_bracket (Or.inl rfl) found single with ⟨rest, split, absent, closed⟩
  have suffix := rest_suffix closed
  simp only at suffix
  have before : ']' ∉ tail := by
    intro inside
    have front : read.host = tail.takeWhile (fun char => char != ']') := by
      have both := congrArg (List.takeWhile (fun char => char != ']')) split
      rcases List.eq_append_cons_of_mem inside with ⟨first, second, rfl, apart⟩
      have firstKept : forall char, char ∈ first -> (char != ']') = true := fun char member =>
        bne_iff_ne.mpr (fun same => apart (same ▸ member))
      have hostKept : forall char, char ∈ read.host -> (char != ']') = true := fun char member =>
        bne_iff_ne.mpr (fun same => absent (same ▸ member))
      rw [List.append_assoc, List.cons_append, List.takeWhile_append_of_pos firstKept,
        List.takeWhile_append_of_pos hostKept, List.takeWhile_cons_of_neg (by decide),
        List.takeWhile_cons_of_neg (by decide), List.append_nil, List.append_nil] at both
      rw [List.takeWhile_append_of_pos firstKept, List.takeWhile_cons_of_neg (by decide), List.append_nil, both]
    have shorter := @weight_takeWhile_lt (fun char => char != ']') tail ']' inside (by decide)
    have size := (unescape_length isHost).1
    have whole : (utf8 host).length = weight host.toList := rfl
    rw [whole, bracketed, weight_cons, front] at size
    omega
  have outside : ']' ∉ tail ++ ':' :: ((toString port).toList ++ ['/']) := by
    simp only [List.mem_append, List.mem_cons, List.not_mem_nil, or_false, not_or]
    exact ⟨before, by decide, fun member => ne_of_port_char member ⟨by decide, by decide⟩ rfl, by decide⟩
  have shape : (tail ++ ':' :: ((toString port).toList ++ ['/'])) ++ (name.toList ++ '?' :: modeQuery sslmode) =
      read.host ++ ']' :: rest := by
    rw [<- split]
    simp only [List.append_assoc, List.cons_append, List.nil_append]
  have lighter : weight rest < weight (name.toList ++ '?' :: modeQuery sslmode) := by
    rcases List.append_eq_append_iff.mp shape with ⟨more, _, behind⟩ | ⟨more, inFront, behind⟩
    · rw [behind, weight_append, weight_cons]
      have size := utf8EncodeChar_length_pos ']'
      omega
    · cases more with
      | nil =>
          rw [List.nil_append] at behind
          rw [<- behind, weight_cons]
          have size := utf8EncodeChar_length_pos ']'
          omega
      | cons first others =>
          have same : first = ']' := (List.cons.inj behind).1.symm
          exact absurd (by rw [inFront, same]; exact List.mem_append_right _ List.mem_cons_self) outside
  rcases suffix with ⟨skipped, whole⟩
  rw [<- whole, left, weight_append, weight_append, weight_append] at lighter
  omega

theorem readable_of_readAddress {host name sslmode : String} {port : Int} {settings after : Settings}
    (fresh : forall key, key ∈ ["host", "port", "dbname", "sslmode"] -> settings key = none)
    (read : readAddress keywords (addressText host (toString port).toList name sslmode) settings = some after)
    (single : forall bytes, after "port" = some bytes -> 44 ∉ bytes)
    (isHost : (after "host").getD [] = utf8 host) (isName : (after "dbname").getD [] = utf8 name)
    (isMode : modeBytes after = utf8 sslmode) : ReadableAddress host name sslmode := by
  rcases Option.bind_eq_some_iff.mp read with ⟨netloc, found, rest⟩
  rcases Option.bind_eq_some_iff.mp rest with ⟨withHost, hosted, rest⟩
  rcases Option.bind_eq_some_iff.mp rest with ⟨withPort, ported, path⟩
  have shape : addressText host (toString port).toList name sslmode =
      (host.toList ++ ':' :: ((toString port).toList ++ '/' :: name.toList)) ++ '?' :: modeQuery sslmode := by
    unfold addressText modeQuery
    simp only [List.append_assoc, List.cons_append]
  have modeMissing : withPort "sslmode" = none := by
    rw [setPart_of_ne (by decide) ported, setPart_of_ne (by decide) hosted]
    exact fresh _ (by decide)
  have nameMissing : withPort "dbname" = none := by
    rw [setPart_of_ne (by decide) ported, setPart_of_ne (by decide) hosted]
    exact fresh _ (by decide)
  have marked := found
  rw [shape] at marked
  rcases rest_at_mark marked with ⟨part, left, _⟩ | ⟨inner, behind, query, suffix⟩
  · -- the query is read from its start, so nothing overrides the other parts
    have head : part = [] ∨ (Exists fun tail : List Char => part = '/' :: tail) ∨
        Exists fun tail : List Char => part = '?' :: tail := by
      cases part with
      | nil => exact Or.inl rfl
      | cons char tail =>
          rcases rest_head found with empty | ⟨later, slash⟩ | ⟨later, mark⟩
          · rw [left] at empty
            cases empty
          · rw [left] at slash
            exact Or.inr (Or.inl ⟨tail, by rw [(List.cons.inj slash).1]⟩)
          · rw [left] at mark
            exact Or.inr (Or.inr ⟨tail, by rw [(List.cons.inj mark).1]⟩)
    rw [left] at path
    have named : Exists fun withName : Settings => Exists fun text : List Char =>
        (part = [] ∧ text = [] ∨ part = '/' :: text) ∧ '?' ∉ text ∧ setPart "dbname" text withPort = some withName ∧
          readParams keywords (modeQuery sslmode) withName = some after := by
      rcases readPath_query path head with ⟨empty, query⟩ | ⟨text, withName, slash, noMark, set, query⟩
      · exact ⟨withPort, [], Or.inl ⟨empty, rfl⟩, List.not_mem_nil, if_pos rfl, query⟩
      · exact ⟨withName, text, Or.inr slash, noMark, set, query⟩
    rcases named with ⟨withName, text, partIs, noMark, set, query⟩
    have mode := mode_of_readParams ((setPart_of_ne (by decide) set).trans modeMissing) query isMode
    have nameRead : unescape text = some (utf8 name) := by
      rw [unescape_of_setPart nameMissing set, <- mode.2.2 "dbname" (by decide), isName]
    have hostRead : unescape netloc.host = some (utf8 host) := by
      rw [unescape_of_setPart (fresh _ (by decide)) hosted, <- setPart_of_ne (by decide) ported,
        <- setPart_of_ne (by decide) set, <- mode.2.2 "host" (by decide), isHost]
    have portMissing : withHost "port" = none := by
      rw [setPart_of_ne (by decide) hosted]
      exact fresh _ (by decide)
    have one : ',' ∉ netloc.port := by
      intro comma
      have decoded := unescape_of_setPart portMissing ported
      rw [<- setPart_of_ne (by decide) set, <- mode.2.2 "port" (by decide)] at decoded
      have inside := @mem_unescape ',' (by decide) (by decide) 44 List.mem_cons_self netloc.port _ decoded comma
      cases value : after "port" with
      | none =>
          rw [value] at inside
          exact absurd inside List.not_mem_nil
      | some bytes =>
          rw [value] at inside
          exact single bytes value inside
    have nameWeight : weight name.toList ≤ weight text := (unescape_length nameRead).1
    by_cases bracketed : host.toList.head? = some '['
    · -- a host in brackets takes too much
      rcases List.head?_eq_some_iff.mp bracketed with ⟨tail, opens⟩
      have inBracket := found
      unfold addressText at inBracket
      rw [opens] at inBracket
      have lighter := bracketed_lost opens inBracket one hostRead left
      exfalso
      rcases partIs with ⟨rfl, rfl⟩ | rfl
      · rw [weight_nil] at nameWeight lighter
        omega
      · rw [weight_cons] at lighter
        omega
    · have started : netlocs .host (addressText host (toString port).toList name sslmode) = some netloc := by
        rw [<- found]
        unfold addressText
        cases hostChars : host.toList with
        | nil => rfl
        | cons first others =>
            have other : first ≠ '[' := fun same => bracketed (by rw [hostChars, same]; rfl)
            rw [List.cons_append, netlocs_cons, netlocs_cons]
            have move : Place.move .start first = Place.move .host first := if_neg other
            rw [move]
      have ends : netloc.host = host.toList.takeWhile (fun char => decide (Plain char)) := by
        rw [host_of_plain started one]
        exact takeWhile_stop (by decide) host.toList _
      have plain : forall char, char ∈ host.toList -> Plain char := by
        intro char member
        by_contra odd
        have shorter := @weight_takeWhile_lt (fun char => decide (Plain char)) host.toList char member
          (decide_eq_false odd)
        have size := (unescape_length hostRead).1
        have whole : (utf8 host).length = weight host.toList := rfl
        rw [ends, whole] at size
        omega
      have hostWhole : netloc.host = host.toList := by
        rw [ends]
        have all := @List.takeWhile_append_of_pos _ (fun char => decide (Plain char)) host.toList []
          (fun char member => decide_eq_true (plain char member))
        rwa [List.append_nil, List.takeWhile_nil, List.append_nil] at all
      have portClean : forall char, char ∈ (toString port).toList -> char ≠ ',' ∧ char ≠ '/' ∧ char ≠ '?' :=
        fun char member => ⟨ne_of_port_char member ⟨by decide, by decide⟩,
          ne_of_port_char member ⟨by decide, by decide⟩, ne_of_port_char member ⟨by decide, by decide⟩⟩
      have located : netlocs .start (addressText host (toString port).toList name sslmode) =
          some ⟨host.toList, (toString port).toList, '/' :: (name.toList ++ '?' :: modeQuery sslmode)⟩ :=
        netlocs_address plain bracketed portClean _
      have restIs : netloc.rest = ('/' :: name.toList) ++ '?' :: modeQuery sslmode :=
        congrArg Netlocs.rest (Option.some.inj (found.symm.trans located))
      have partWhole : part = '/' :: name.toList := List.append_cancel_right (left.symm.trans restIs)
      have textWhole : text = name.toList := by
        rcases partIs with ⟨empty, _⟩ | slash
        · rw [empty] at partWhole
          cases partWhole
        · exact (List.cons.inj (slash.symm.trans partWhole)).2
      rw [hostWhole] at hostRead
      rw [textWhole] at nameRead noMark
      refine ⟨fun char member => ⟨plain char member, ?_⟩, bracketed, fun char member => ⟨?_, ?_⟩, mode.1, mode.2.1⟩
      · exact fun escaped => percent_not_mem hostRead (escaped ▸ member)
      · exact fun mark => noMark (mark ▸ member)
      · exact fun escaped => percent_not_mem nameRead (escaped ▸ member)
  · -- a bracket that closes in the mode leaves too little of it
    exfalso
    have inMode : Exists fun front : List Char => sslmode.toList = front ++ ']' :: behind := by
      unfold modeQuery at query
      have key : ']' ∉ "sslmode".toList ++ ['='] := by decide
      have whole : ("sslmode".toList ++ ['=']) ++ sslmode.toList = inner ++ ']' :: behind := by
        rw [<- query]
        simp only [List.append_assoc, List.cons_append, List.nil_append]
      rcases List.append_eq_append_iff.mp whole with ⟨more, _, later⟩ | ⟨more, inKey, later⟩
      · exact ⟨more, later⟩
      · cases more with
        | nil => exact ⟨[], later.symm⟩
        | cons first others =>
            have same : first = ']' := (List.cons.inj later).1.symm
            exact absurd (by rw [inKey, same]; exact List.mem_append_right _ List.mem_cons_self) key
    rcases inMode with ⟨front, modeIs⟩
    have lighter : weight netloc.rest < weight sslmode.toList := by
      rcases suffix with ⟨skipped, whole⟩
      rw [modeIs, weight_append, weight_cons, <- whole, weight_append]
      have size := utf8EncodeChar_length_pos ']'
      omega
    have mode := mode_of_short (fun bytes value => by
      rcases readPath_bound modeMissing path bytes value with short | translated
      · exact Or.inl (Nat.lt_of_le_of_lt short lighter)
      · exact Or.inr translated) isMode
    have closing : ']' ∈ sslmode.toList := by
      rw [modeIs]
      exact List.mem_append_right _ List.mem_cons_self
    exact not_mem_of_mode mode (by decide) closing

/-- A condition on each character of a concrete text can be evaluated. -/
theorem forall_of_all {property : Char -> Prop} [DecidablePred property] {text : List Char}
    (all : text.all (fun char => decide (property char)) = true) : forall char, char ∈ text -> property char :=
  fun char member => of_decide_eq_true (List.all_eq_true.mp all char member)

theorem readable_blank : Readable blank := by
  refine ⟨⟨forall_of_all ?_, ?_, forall_of_all ?_, ?_, forall_of_all ?_⟩, ?_⟩ <;> decide

/-- The texts that libpq reports, as `parse_dsn` takes them. -/
theorem utf8_orDefault (value : Option String) : utf8 (orDefault value "") = (value.map utf8).getD [] := by
  cases value with
  | none => rfl
  | some text =>
      unfold orDefault
      simp only
      split
      · rename_i empty
        rw [empty]
        rfl
      · rfl

theorem modeBytes_eq {settings : Settings} {value : Option String} (holds : settings "sslmode" = value.map utf8) :
    modeBytes settings = utf8 (orDefault value "require") := by
  unfold modeBytes
  rw [holds]
  cases value with
  | none => rfl
  | some text =>
      unfold orDefault
      simp only [Option.map_some]
      by_cases empty : text = ""
      · rw [if_pos empty, if_pos (utf8_eq_nil.mpr empty)]
      · rw [if_neg empty, if_neg (fun nothing => empty (utf8_eq_nil.mp nothing))]

theorem nul_not_mem_orDefault {value : Option String} {default : String}
    (given : forall text, value = some text -> '\x00' ∉ text.toList) (clean : '\x00' ∉ default.toList) :
    '\x00' ∉ (orDefault value default).toList := by
  cases value with
  | none => exact clean
  | some text =>
      unfold orDefault
      simp only
      split
      · exact clean
      · exact given text rfl

/-- No part that is read of a built DSN has a NUL. -/
theorem parse_nulFree {conninfo : ConninfoToDict} (laws : ReadsUris keywords conninfo) (parts : Parts) (text : String)
    (member : text ∈ (parseDsn conninfo (some (buildDsn parts))).texts) : '\x00' ∉ text.toList := by
  unfold parseDsn at member
  simp only at member
  rw [if_neg (buildDsn_ne_empty parts), conninfo_buildDsn laws] at member
  cases found : (readUri keywords "postgresql://" (buildDsn parts)).bind readParts with
  | none =>
      rw [found] at member
      exact readable_blank.nulFree text member
  | some read =>
      rw [found, Option.getD_some] at member
      rcases Option.bind_eq_some_iff.mp found with ⟨dict, parsed, taken⟩
      rcases Option.map_eq_some_iff.mp taken with ⟨port, _, rfl⟩
      have reported : forall key, key ∈ keywords.listed -> forall value, dict key = some value ->
          '\x00' ∉ value.toList := fun key listed value present => readUri_nulFree parsed listed present
      simp only [Parts.texts, List.mem_cons, List.not_mem_nil, or_false] at member
      rcases member with rfl | rfl | rfl | rfl | rfl
      · exact nul_not_mem_orDefault (reported "host" (keywords.basic _ (by decide))) (by decide)
      · exact nul_not_mem_orDefault (reported "dbname" (keywords.basic _ (by decide))) (by decide)
      · exact nul_not_mem_orDefault (reported "user" (keywords.basic _ (by decide))) (by decide)
      · exact nul_not_mem_orDefault (reported "password" (keywords.basic _ (by decide))) (by decide)
      · exact nul_not_mem_orDefault (reported "sslmode" (keywords.basic _ (by decide))) (by decide)

theorem readable_of_parse {conninfo : ConninfoToDict} (laws : ReadsUris keywords conninfo) {parts : Parts}
    (back : parseDsn conninfo (some (buildDsn parts)) = parts) : Readable parts := by
  have nulFree : forall text, text ∈ parts.texts -> '\x00' ∉ text.toList := by
    intro text member
    rw [<- back] at member
    exact parse_nulFree laws parts text member
  rcases credentials_hold (nulFree parts.dbUser (by simp [Parts.texts]))
    (nulFree parts.dbPassword (by simp [Parts.texts])) with ⟨named, settings, first, second, holds⟩
  unfold parseDsn at back
  simp only at back
  rw [if_neg (buildDsn_ne_empty parts), conninfo_buildDsn laws, readUri_buildDsn nulFree, first, Option.bind_some,
    second, Option.bind_some] at back
  cases found : ((readAddress keywords parts.address settings).bind (toDict keywords)).bind readParts with
  | none =>
      -- a reading that fails gives blank parts, which are readable
      rw [found] at back
      rw [<- back]
      exact readable_blank
  | some same =>
      rw [found, Option.getD_some] at back
      subst back
      rcases Option.bind_eq_some_iff.mp found with ⟨dict, parsed, taken⟩
      rcases Option.bind_eq_some_iff.mp parsed with ⟨after, read, decoded⟩
      rcases Option.map_eq_some_iff.mp taken with ⟨port, isPort, partsAre⟩
      have reported : forall key, key ∈ ["user", "password", "host", "port", "dbname", "sslmode"] ->
          after key = (dict key).map utf8 := fun key basic => toDict_eq_some decoded (keywords.basic key basic)
      refine ⟨readable_of_readAddress ?_ read ?_ ?_ ?_ ?_, nulFree⟩
      · intro key member
        rw [holds]
        have different : key ≠ "password" ∧ key ≠ "user" := by
          simp only [List.mem_cons, List.not_mem_nil, or_false] at member
          rcases member with rfl | rfl | rfl | rfl <;> decide
        rw [withText_of_ne different.1, withText_of_ne different.2]
        rfl
      · intro bytes present comma
        rw [reported "port" (by decide)] at present
        rcases Option.map_eq_some_iff.mp present with ⟨text, given, rfl⟩
        rw [given] at isPort
        have noComma : ',' ∉ text.toList := by
          unfold readPort at isPort
          simp only at isPort
          split at isPort
          · rename_i empty
            rw [empty]
            decide
          · exact comma_not_mem_of_readInt isPort
        rcases List.mem_flatMap.mp comma with ⟨char, inside, stands⟩
        have code : char = ',' := Char.ext (UInt32.toNat_inj.mp (ascii_mem_utf8EncodeChar (by decide) stands))
        exact noComma (code ▸ inside)
      · rw [reported "host" (by decide), <- utf8_orDefault, <- partsAre]
      · rw [reported "dbname" (by decide), <- utf8_orDefault, <- partsAre]
      · rw [modeBytes_eq (reported "sslmode" (by decide)), <- partsAre]

/-! ## Which parts survive -/

theorem parse_iff {conninfo : ConninfoToDict} (laws : ReadsUris keywords conninfo) (parts : Parts) :
    parseDsn conninfo (some (buildDsn parts)) = parts ↔ Readable parts :=
  ⟨readable_of_parse laws, parse_of_readable laws⟩

/-- Normalizing keeps the parts, and does nothing the second time, exactly if it
does nothing at all or the parts can be read back. -/
theorem normalize_iff {conninfo : ConninfoToDict} (laws : ReadsUris keywords conninfo) (dsn : Option String) :
    (normalizeDsn conninfo (normalizeDsn conninfo dsn) = normalizeDsn conninfo dsn ∧
        parseDsn conninfo (normalizeDsn conninfo dsn) = parseDsn conninfo dsn) ↔
      (parseDsn conninfo dsn).dbHost = "" ∨ Readable (parseDsn conninfo dsn) := by
  have kept : (parseDsn conninfo dsn).dbHost = "" -> normalizeDsn conninfo dsn = dsn := by
    intro hostless
    cases dsn with
    | none => rfl
    | some text =>
        unfold normalizeDsn
        simp only
        rw [if_pos hostless]
        split <;> rfl
  have rebuilt : forall {given : Option String}, (parseDsn conninfo given).dbHost ≠ "" ->
      normalizeDsn conninfo given = some (buildDsn (parseDsn conninfo given)) := by
    intro given hosted
    cases given with
    | none => exact absurd rfl hosted
    | some text =>
        have nonempty : text ≠ "" := by
          rintro rfl
          exact hosted rfl
        unfold normalizeDsn
        simp only
        rw [if_neg nonempty, if_neg hosted]
  by_cases hostless : (parseDsn conninfo dsn).dbHost = ""
  · rw [kept hostless]
    exact ⟨fun _ => Or.inl hostless, fun _ => ⟨kept hostless, rfl⟩⟩
  · rw [rebuilt hostless]
    constructor
    · intro normal
      exact Or.inr (readable_of_parse laws normal.2)
    · intro either
      have back := parse_of_readable laws (either.resolve_left hostless)
      refine ⟨?_, back⟩
      rw [rebuilt (by rw [back]; exact hostless), back]

/-- The parts that come back from a DSN are the readable ones, and normalizing keeps
what is reported under the same condition. -/
theorem parts_round_trip_iff (keywords : Keywords) (conninfo : ConninfoToDict) (laws : ReadsUris keywords conninfo) :
    (forall parts : Parts, parseDsn conninfo (some (buildDsn parts)) = parts ↔ Readable parts) ∧
      forall dsn : Option String, (normalizeDsn conninfo (normalizeDsn conninfo dsn) = normalizeDsn conninfo dsn ∧
          parseDsn conninfo (normalizeDsn conninfo dsn) = parseDsn conninfo dsn) ↔
        ((parseDsn conninfo dsn).dbHost = "" ∨ Readable (parseDsn conninfo dsn)) :=
  ⟨parse_iff laws, normalize_iff laws⟩

/-- The keywords of libpq 17. -/
def libpq : Keywords where
  listed := ["service", "user", "password", "passfile", "channel_binding", "connect_timeout", "dbname", "host",
    "hostaddr", "port", "client_encoding", "options", "application_name", "fallback_application_name",
    "keepalives", "keepalives_idle", "keepalives_interval", "keepalives_count", "tcp_user_timeout", "sslmode",
    "sslnegotiation", "sslcompression", "sslcert", "sslkey", "sslcertmode", "sslpassword", "sslrootcert", "sslcrl",
    "sslcrldir", "sslsni", "requirepeer", "require_auth", "ssl_min_protocol_version", "ssl_max_protocol_version",
    "gssencmode", "krbsrvname", "gsslib", "gssdelegation", "replication", "target_session_attrs",
    "load_balance_hosts"]
  basic := by decide
  words := by decide

/-- The reading of URIs, without the other form of a DSN. -/
def libpqUris : ConninfoToDict :=
  fun dsn => if "postgresql://".toList.isPrefixOf dsn.toList then readUri libpq "postgresql://" dsn else none

theorem libpqUris_readsUris : ReadsUris libpq libpqUris :=
  fun _ uri => if_pos uri

def salesParts : Parts :=
  { dbHost := "db.internal", dbPort := 5432, dbName := "sales/2024#a@b", dbUser := "app"
    dbPassword := "p%/?#@&=:", dbSslmode := "verify-full" }

theorem sales_parts_round_trip : parseDsn libpqUris (some (buildDsn salesParts)) = salesParts := by
  refine ((parts_round_trip_iff libpq libpqUris libpqUris_readsUris).1 salesParts).mpr ⟨⟨?_, ?_, ?_, ?_, ?_⟩, ?_⟩
  · exact forall_of_all (by decide)
  · decide
  · exact forall_of_all (by decide)
  · decide
  · exact forall_of_all (by decide)
  · decide

/-- A question mark in the name makes libpq reject the DSN, and all parts blank. -/
theorem blank_of_mark {conninfo : ConninfoToDict} (laws : ReadsUris keywords conninfo) {parts : Parts}
    (nulFree : forall text, text ∈ parts.texts -> '\x00' ∉ text.toList)
    (plain : forall char, char ∈ parts.dbHost.toList -> Plain char)
    (unbracketed : parts.dbHost.toList.head? ≠ some '[') (mark : '?' ∈ parts.dbName.toList) :
    parseDsn conninfo (some (buildDsn parts)) = blank := by
  have portClean : forall char, char ∈ (toString parts.dbPort).toList -> char ≠ ',' ∧ char ≠ '/' ∧ char ≠ '?' :=
    fun char member => ⟨ne_of_port_char member ⟨by decide, by decide⟩,
      ne_of_port_char member ⟨by decide, by decide⟩, ne_of_port_char member ⟨by decide, by decide⟩⟩
  have located : netlocs .start parts.address = some ⟨parts.dbHost.toList, (toString parts.dbPort).toList,
      '/' :: (parts.dbName.toList ++ '?' :: modeQuery parts.dbSslmode)⟩ :=
    netlocs_address plain unbracketed portClean _
  have fails : forall settings : Settings, readAddress keywords parts.address settings = none := by
    intro settings
    cases read : readAddress keywords parts.address settings with
    | none => rfl
    | some after =>
        exfalso
        unfold readAddress at read
        rw [located, Option.bind_some] at read
        rcases Option.bind_eq_some_iff.mp read with ⟨withHost, _, rest⟩
        rcases Option.bind_eq_some_iff.mp rest with ⟨withPort, _, path⟩
        have onward : readPath keywords (('/' :: parts.dbName.toList) ++ '?' :: modeQuery parts.dbSslmode) withPort =
            some after := path
        rcases readPath_query onward (Or.inr (Or.inl ⟨_, rfl⟩)) with ⟨empty, _⟩ | ⟨name, _, same, noMark, _⟩
        · cases empty
        · rw [<- (List.cons.inj same).2] at noMark
          exact noMark mark
  unfold parseDsn
  simp only
  rw [if_neg (buildDsn_ne_empty parts), conninfo_buildDsn laws, readUri_buildDsn nulFree]
  cases setPart "user" (quote parts.dbUser).toList unset with
  | none => rfl
  | some named =>
      rw [Option.bind_some]
      cases setPart "password" (quote parts.dbPassword).toList named with
      | none => rfl
      | some settings =>
          rw [Option.bind_some, fails]
          rfl

/-- The password of a database with such a name is read as blank. -/
theorem question_mark_loses_password :
    (parseDsn libpqUris (some (buildDsn { salesParts with dbName := "sales?" }))).dbPassword = "" ∧
      parseDsn libpqUris (some (buildDsn { salesParts with dbName := "sales?" })) ≠
        { salesParts with dbName := "sales?" } := by
  have lost := @blank_of_mark libpq libpqUris libpqUris_readsUris { salesParts with dbName := "sales?" }
    (by decide) (forall_of_all (by decide)) (by decide) (by decide)
  rw [lost]
  exact ⟨rfl, by decide⟩

end DsnParts
end WarehouseSync

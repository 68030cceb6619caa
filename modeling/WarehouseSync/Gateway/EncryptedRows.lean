import WarehouseSync.Gateway.ConfigStore
import WarehouseSync.Library.Fields
import WarehouseSync.Library.Transition
import Mathlib.Data.List.Forall2

namespace WarehouseSync
namespace EncryptedRows

open ConfigStore Fields Transition

/-!
# Secrets at rest (`common/crypto.py`, `common/config_store.py`)

The DSN and the AWS keys of a connection are encrypted with Fernet in
`pipeline_connections` and decrypted when the connections are loaded.  Everything
else is about connections with readable secrets.  The table behind them takes
every step that they take: an update that leaves a key out keeps its encrypted
value, and a value that predates the encryption is read as it is.

All connections are loaded at once, so one value that cannot be decrypted is an
error for all of them.
-/

/-- The library.  The nonce is the time and the random bytes of a token, so
encrypting is a function of it.  All that is assumed is that a token can be
decrypted with its own key. -/
structure Fernet where
  encrypt : (key nonce plaintext : String) -> String
  decrypt : (key token : String) -> Option String
  /-- Why a text is no key. -/
  rejects : String -> Option String
  decrypt_encrypt : forall key nonce text, decrypt key (encrypt key nonce text) = some text

/-- `_fernet`, from the value of `CONFIG_ENCRYPTION_KEY` without blanks around it. -/
def fernetKey (fernet : Fernet) (setting : String) : Except String String :=
  if setting = "" then
    .error ("CONFIG_ENCRYPTION_KEY is not set. Generate one with " ++
      "`python -c \"from cryptography.fernet import Fernet; " ++
      "print(Fernet.generate_key().decode())\"` and set it in the environment.")
  else
    match fernet.rejects setting with
    | some reason => .error ("CONFIG_ENCRYPTION_KEY is not a valid Fernet key: " ++ reason)
    | none => .ok setting

/-- `_ENC_PREFIX`. -/
def encPrefix : List Char :=
  "enc:v1:".toList

/-- The stored form of an encrypted text.  The prefix is what tells it from a value
that was stored before there was encryption. -/
def sealed (fernet : Fernet) (key nonce text : String) : String :=
  String.ofList (encPrefix ++ (fernet.encrypt key nonce text).toList)

/-- The key is only looked up for a text that is not empty, so rows without secrets
can be written without a key. -/
def encrypt (fernet : Fernet) (setting nonce : String) : Option String -> Except String (Option String)
  | none => .ok none
  | some text =>
      if text = "" then .ok (some text)
      else (fernetKey fernet setting).map (fun key => some (sealed fernet key nonce text))

/-- A value without the prefix is returned as it is.  A token that the key does not
fit is an error, and the whole row cannot be loaded then. -/
def decrypt (fernet : Fernet) (setting : String) : Option String -> Except String (Option String)
  | none => .ok none
  | some stored =>
      if encPrefix.isPrefixOf stored.toList = true then
        match fernetKey fernet setting with
        | .error reason => .error reason
        | .ok key =>
            match fernet.decrypt key (String.ofList (stored.toList.drop encPrefix.length)) with
            | some text => .ok (some text)
            | none => .error "Failed to decrypt a stored secret — CONFIG_ENCRYPTION_KEY likely changed."
      else .ok (some stored)

/-- A row of `pipeline_connections`, with its three secrets as they are stored. -/
structure Row where
  id : Int
  name : String
  enabled : Bool
  sourceDsnEnc : Option String
  awsAccessKeyEnc : Option String
  awsSecretKeyEnc : Option String
  awsRegion : String
  lakeBucket : String
  icebergNamespace : String
  syncInclude : String
  syncExclude : String
  syncObjectTypes : String
  syncSchemaBlacklist : String
deriving DecidableEq, Repr

structure Table where
  rows : List Row
  nextId : Int
deriving DecidableEq, Repr

/-- `_row_to_connection`.  The column of the DSN is never NULL. -/
def rowToConnection (fernet : Fernet) (setting : String) (row : Row) : Except String Connection := do
  let sourceDsn <- decrypt fernet setting row.sourceDsnEnc
  let awsAccessKey <- decrypt fernet setting row.awsAccessKeyEnc
  let awsSecretKey <- decrypt fernet setting row.awsSecretKeyEnc
  .ok
    { id := row.id, name := row.name, enabled := row.enabled, sourceDsn := sourceDsn.getD ""
      awsAccessKey := awsAccessKey, awsSecretKey := awsSecretKey, awsRegion := row.awsRegion
      lakeBucket := row.lakeBucket, icebergNamespace := row.icebergNamespace
      syncInclude := row.syncInclude, syncExclude := row.syncExclude
      syncObjectTypes := row.syncObjectTypes, syncSchemaBlacklist := row.syncSchemaBlacklist }

/-- `_load_all`: all rows in the order of their ids.  One row that cannot be
decrypted makes the whole list fail. -/
def loadAll (fernet : Fernet) (setting : String) (table : Table) : Except String (List Connection) :=
  (table.rows.mergeSort (fun first second => decide (first.id ≤ second.id))).mapM (rowToConnection fernet setting)

/-- The nonces that one upsert draws. -/
structure Nonces where
  dsn : String
  accessKey : String
  secretKey : String
deriving DecidableEq, Repr

/-- The three encrypted values, in the order of the statement. -/
def encryptColumns (fernet : Fernet) (setting : String) (nonces : Nonces) (columns : Store.ConnectionColumns) :
    Except String (Option String × Option String × Option String) := do
  let dsn <- encrypt fernet setting nonces.dsn (some columns.sourceDsn)
  let accessKey <- encrypt fernet setting nonces.accessKey columns.awsAccessKey
  let secretKey <- encrypt fernet setting nonces.secretKey columns.awsSecretKey
  .ok (dsn, accessKey, secretKey)

/-- The row of a connection with these encrypted values. -/
def rowOf (columns : Store.ConnectionColumns) (secrets : Option String × Option String × Option String) (id : Int) :
    Row :=
  let plain := columns.row id
  { id := id, name := plain.name, enabled := plain.enabled, sourceDsnEnc := secrets.1
    awsAccessKeyEnc := secrets.2.1, awsSecretKeyEnc := secrets.2.2, awsRegion := plain.awsRegion
    lakeBucket := plain.lakeBucket, icebergNamespace := plain.icebergNamespace
    syncInclude := plain.syncInclude, syncExclude := plain.syncExclude
    syncObjectTypes := plain.syncObjectTypes, syncSchemaBlacklist := plain.syncSchemaBlacklist }

/-- The unique constraints, for a row of this id. -/
def Table.unused (table : Table) (columns : Store.ConnectionColumns) (id : Option Int) : Bool :=
  table.rows.all (fun row => decide (id = some row.id) ||
    (row.name != columns.name && row.icebergNamespace != columns.icebergNamespace))

/-- `COALESCE(new, old)`.  It is applied to the encrypted values, so an empty text
that is given does replace the old one. -/
def coalesce (new old : Option String) : Option String :=
  new.orElse (fun _ => old)

/-- The `UPDATE` of a row. -/
def updateRow (columns : Store.ConnectionColumns) (secrets : Option String × Option String × Option String) (id : Int)
    (row : Row) : Row :=
  if row.id = id then
    { rowOf columns secrets id with
      sourceDsnEnc := coalesce secrets.1 row.sourceDsnEnc
      awsAccessKeyEnc := coalesce secrets.2.1 row.awsAccessKeyEnc
      awsSecretKeyEnc := coalesce secrets.2.2 row.awsSecretKeyEnc }
  else row

/-- What is done to connections. -/
inductive Event where
  | insert (columns : Store.ConnectionColumns) (nonces : Nonces)
  | update (id : Int) (columns : Store.ConnectionColumns) (nonces : Nonces)
  | delete (id : Int)
deriving DecidableEq

/-- `upsert_connection` and `delete_connection`; one that raises is no step.  The
values are encrypted before the statement, so without a key nothing is written. -/
def step (fernet : Fernet) (setting : String) (table : Table) : Event -> Option Table
  | .insert columns nonces =>
      match encryptColumns fernet setting nonces columns with
      | .error _ => none
      | .ok secrets =>
          if table.unused columns none = true then
            some { rows := table.rows ++ [rowOf columns secrets table.nextId], nextId := table.nextId + 1 }
          else none
  | .update id columns nonces =>
      match encryptColumns fernet setting nonces columns with
      | .error _ => none
      | .ok secrets =>
          if table.unused columns (some id) = true then
            some { table with rows := table.rows.map (updateRow columns secrets id) }
          else none
  | .delete id => some { table with rows := table.rows.filter (fun row => decide (row.id ≠ id)) }

/-- The same on connections with readable secrets.  It is the description that the
rest of the gateway is modelled on. -/
def plainStep (store : Store) : Event -> Option Store
  | .insert columns _ => store.insertConnection columns
  | .update id columns _ => store.updateConnection id columns
  | .delete id => some (store.deleteConnection id)

/-! ## What is written can be read -/

variable {fernet : Fernet} {setting key : String}

theorem toList_sealed (nonce text : String) : (sealed fernet key nonce text).toList =
    encPrefix ++ (fernet.encrypt key nonce text).toList :=
  String.toList_ofList

/-- Reading a sealed text asks the library about its token. -/
theorem decrypt_sealed_eq (nonce text : String) : decrypt fernet setting (some (sealed fernet key nonce text)) =
    match fernetKey fernet setting with
    | .error reason => .error reason
    | .ok used =>
        match fernet.decrypt used (fernet.encrypt key nonce text) with
        | some text => .ok (some text)
        | none => .error "Failed to decrypt a stored secret — CONFIG_ENCRYPTION_KEY likely changed." := by
  have marked : encPrefix.isPrefixOf (sealed fernet key nonce text).toList = true := by
    rw [toList_sealed, List.isPrefixOf_iff_prefix]
    exact List.prefix_append _ _
  have token : String.ofList ((sealed fernet key nonce text).toList.drop encPrefix.length) =
      fernet.encrypt key nonce text := by
    rw [toList_sealed, List.drop_left, String.ofList_toList]
  simp only [decrypt, if_pos marked, token]

theorem decrypt_sealed (usable : fernetKey fernet setting = .ok key) (nonce text : String) :
    decrypt fernet setting (some (sealed fernet key nonce text)) = .ok (some text) := by
  simp only [decrypt_sealed_eq, usable, fernet.decrypt_encrypt]

/-- An empty value is stored as it is. -/
theorem decrypt_empty : decrypt fernet setting (some "") = .ok (some "") :=
  rfl

/-- Only a secret that is not empty needs the key. -/
theorem encrypt_eq_ok (usable : fernetKey fernet setting = .ok key) (nonce : String) (text : Option String) :
    Exists fun stored : Option String => encrypt fernet setting nonce text = .ok stored ∧
      decrypt fernet setting stored = .ok text ∧ (stored = none ↔ text = none) := by
  cases text with
  | none => exact ⟨none, rfl, rfl, Iff.rfl⟩
  | some text =>
      simp only [encrypt]
      by_cases empty : text = ""
      · subst empty
        rw [if_pos rfl]
        exact ⟨some "", rfl, decrypt_empty, by simp⟩
      · rw [if_neg empty, usable]
        exact ⟨some (sealed fernet key nonce text), rfl, decrypt_sealed usable nonce text, by simp⟩

/-- A secret that is left out keeps its stored value. -/
theorem decrypt_coalesce {stored old text plain : Option String}
    (read : decrypt fernet setting stored = .ok text) (same : stored = none ↔ text = none)
    (before : decrypt fernet setting old = .ok plain) :
    decrypt fernet setting (coalesce stored old) = .ok (text.orElse (fun _ => plain)) := by
  cases stored with
  | none =>
      rw [same.mp rfl]
      exact before
  | some value =>
      cases text with
      | none => cases same.mpr rfl
      | some text => exact read

/-- What it takes to read a row. -/
theorem rowToConnection_eq_ok {row : Row} {conn : Connection} :
    rowToConnection fernet setting row = .ok conn ↔
      Exists fun dsn : Option String => decrypt fernet setting row.sourceDsnEnc = .ok dsn ∧
        decrypt fernet setting row.awsAccessKeyEnc = .ok conn.awsAccessKey ∧
        decrypt fernet setting row.awsSecretKeyEnc = .ok conn.awsSecretKey ∧
        conn = { id := row.id, name := row.name, enabled := row.enabled, sourceDsn := dsn.getD ""
                 awsAccessKey := conn.awsAccessKey, awsSecretKey := conn.awsSecretKey, awsRegion := row.awsRegion
                 lakeBucket := row.lakeBucket, icebergNamespace := row.icebergNamespace
                 syncInclude := row.syncInclude, syncExclude := row.syncExclude
                 syncObjectTypes := row.syncObjectTypes, syncSchemaBlacklist := row.syncSchemaBlacklist } := by
  unfold rowToConnection
  cases dsnRead : decrypt fernet setting row.sourceDsnEnc with
  | error reason => exact iff_of_false nofun (by rintro ⟨_, impossible, _⟩; cases impossible)
  | ok dsn =>
      cases accessRead : decrypt fernet setting row.awsAccessKeyEnc with
      | error reason => exact iff_of_false nofun (by rintro ⟨_, _, impossible, _⟩; cases impossible)
      | ok access =>
          cases secretRead : decrypt fernet setting row.awsSecretKeyEnc with
          | error reason => exact iff_of_false nofun (by rintro ⟨_, _, _, impossible, _⟩; cases impossible)
          | ok secret =>
              constructor
              · intro read
                cases read
                exact ⟨dsn, rfl, rfl, rfl, rfl⟩
              · rintro ⟨other, sameDsn, sameAccess, sameSecret, same⟩
                cases sameDsn
                rw [same, ← Except.ok.inj sameAccess, ← Except.ok.inj sameSecret]
                rfl

theorem mapM_eq_ok {α β : Type} {f : α -> Except String β} {inputs : List α} {outputs : List β} :
    inputs.mapM f = .ok outputs ↔ List.Forall₂ (fun input output => f input = .ok output) inputs outputs := by
  induction inputs generalizing outputs with
  | nil =>
      rw [List.mapM_nil, List.forall₂_nil_left_iff]
      exact ⟨fun same => (Except.ok.inj same).symm, fun same => congrArg Except.ok same.symm⟩
  | cons input inputs ih =>
      rw [List.mapM_cons, List.forall₂_cons_left_iff]
      cases first : f input with
      | error reason =>
          refine iff_of_false nofun ?_
          rintro ⟨_, _, impossible, _⟩
          cases impossible
      | ok output =>
          cases rest : inputs.mapM f with
          | error reason =>
              refine iff_of_false nofun ?_
              rintro ⟨_, others, _, alike, _⟩
              cases rest.symm.trans (ih.mpr alike)
          | ok others =>
              constructor
              · intro same
                cases same
                exact ⟨output, others, rfl, ih.mp rest, rfl⟩
              · rintro ⟨_, _, same, alike, rfl⟩
                cases same
                cases rest.symm.trans (ih.mpr alike)
                rfl

/-- Row by row the table is the connections; ids are given out in order.  The order
is part of it because the list is loaded sorted. -/
structure Represents (fernet : Fernet) (setting : String) (table : Table) (store : Store) : Prop where
  rows : List.Forall₂ (fun row conn => rowToConnection fernet setting row = .ok conn) table.rows store.connections
  next : table.nextId = store.nextConnectionId
  ordered : table.rows.Pairwise (fun first second => first.id < second.id)
  issued : forall row, row ∈ table.rows -> row.id < table.nextId

theorem Represents.loadAll {table : Table} {store : Store} (represents : Represents fernet setting table store) :
    loadAll fernet setting table = .ok store.connections := by
  unfold EncryptedRows.loadAll
  rw [List.mergeSort_of_pairwise]
  · exact mapM_eq_ok.mpr represents.rows
  · exact represents.ordered.imp (fun less => decide_eq_true (le_of_lt less))

/-- The constraints look at columns that are not encrypted. -/
theorem unused_eq {table : Table} {store : Store} (columns : Store.ConnectionColumns) (id : Option Int)
    (rows : List.Forall₂ (fun row conn => rowToConnection fernet setting row = .ok conn) table.rows
      store.connections) : table.unused columns id = store.unused columns id := by
  unfold Table.unused Store.unused
  revert rows
  generalize table.rows = rows
  generalize store.connections = conns
  intro alike
  induction alike with
  | nil => rfl
  | cons read _ ih =>
      rcases rowToConnection_eq_ok.mp read with ⟨dsn, _, _, _, same⟩
      rw [List.all_cons, List.all_cons, ih, same]

theorem encryptColumns_eq_ok (usable : fernetKey fernet setting = .ok key) (nonces : Nonces)
    (columns : Store.ConnectionColumns) : Exists fun secrets =>
      encryptColumns fernet setting nonces columns = .ok secrets ∧
        (decrypt fernet setting secrets.1 = .ok (some columns.sourceDsn) ∧ secrets.1 ≠ none) ∧
        (decrypt fernet setting secrets.2.1 = .ok columns.awsAccessKey ∧
          (secrets.2.1 = none ↔ columns.awsAccessKey = none)) ∧
        decrypt fernet setting secrets.2.2 = .ok columns.awsSecretKey ∧
          (secrets.2.2 = none ↔ columns.awsSecretKey = none) := by
  rcases encrypt_eq_ok usable nonces.dsn (some columns.sourceDsn) with ⟨dsn, dsnWritten, dsnRead, dsnNull⟩
  rcases encrypt_eq_ok usable nonces.accessKey columns.awsAccessKey with ⟨access, accessWritten, accessRead⟩
  rcases encrypt_eq_ok usable nonces.secretKey columns.awsSecretKey with ⟨secret, secretWritten, secretRead⟩
  refine ⟨(dsn, access, secret), ?_, ⟨dsnRead, fun null => nomatch dsnNull.mp null⟩, accessRead, secretRead⟩
  unfold encryptColumns
  rw [dsnWritten, accessWritten, secretWritten]
  rfl

/-- A row that is inserted stands for the connection that is. -/
theorem rowToConnection_rowOf {columns : Store.ConnectionColumns}
    {secrets : Option String × Option String × Option String}
    (dsn : decrypt fernet setting secrets.1 = .ok (some columns.sourceDsn))
    (access : decrypt fernet setting secrets.2.1 = .ok columns.awsAccessKey)
    (secret : decrypt fernet setting secrets.2.2 = .ok columns.awsSecretKey) (id : Int) :
    rowToConnection fernet setting (rowOf columns secrets id) = .ok (columns.row id) :=
  rowToConnection_eq_ok.mpr ⟨some columns.sourceDsn, dsn, access, secret, rfl⟩

/-- One step of the table is one step of the connections. -/
theorem Represents.step (usable : fernetKey fernet setting = .ok key) (table : Table) (store : Store)
    (event : Event) (represents : Represents fernet setting table store) :
    Option.Rel (Represents fernet setting) (EncryptedRows.step fernet setting table event)
      (plainStep store event) := by
  have rows := represents.rows
  cases event with
  | insert columns nonces =>
      rcases encryptColumns_eq_ok usable nonces columns with ⟨secrets, written, dsn, access, secret⟩
      simp only [EncryptedRows.step, plainStep, Store.insertConnection, written, unused_eq columns none rows]
      by_cases free : store.unused columns none = true
      · rw [if_pos free, if_pos free]
        refine Option.Rel.some ⟨?_, congrArg (· + 1) represents.next, ?_, ?_⟩
        · refine List.rel_append rows (List.Forall₂.cons ?_ List.Forall₂.nil)
          rw [← represents.next]
          exact rowToConnection_rowOf dsn.1 access.1 secret.1 _
        · refine List.pairwise_append.mpr ⟨represents.ordered, List.pairwise_singleton _ _, ?_⟩
          intro row member fresh listed
          rw [List.mem_singleton.mp listed]
          exact represents.issued row member
        · intro row member
          rcases List.mem_append.mp member with old | new
          · exact lt_trans (represents.issued row old) (Int.lt_succ _)
          · rw [List.mem_singleton.mp new]
            exact Int.lt_succ _
      · rw [if_neg free, if_neg free]
        exact Option.Rel.none
  | update id columns nonces =>
      rcases encryptColumns_eq_ok usable nonces columns with ⟨secrets, written, dsn, access, secret⟩
      simp only [EncryptedRows.step, plainStep, Store.updateConnection, written, unused_eq columns (some id) rows]
      by_cases free : store.unused columns (some id) = true
      · rw [if_pos free, if_pos free]
        have kept (row : Row) : (updateRow columns secrets id row).id = row.id := by
          unfold updateRow
          split
          · rename_i same
            exact same.symm
          · rfl
        refine Option.Rel.some ⟨?_, represents.next, ?_, ?_⟩
        · refine List.rel_map (fun row conn read => ?_) rows
          rcases rowToConnection_eq_ok.mp read with ⟨oldDsn, _, oldAccess, oldSecret, same⟩
          have sameId : conn.id = row.id := congrArg Connection.id same
          unfold updateRow Store.ConnectionColumns.update
          by_cases here : row.id = id
          · rw [if_pos here, if_pos (sameId.trans here)]
            have written : coalesce secrets.1 row.sourceDsnEnc = secrets.1 := by
              cases value : secrets.1 with
              | none => exact absurd value dsn.2
              | some text => rfl
            refine rowToConnection_eq_ok.mpr ⟨some columns.sourceDsn, ?_,
              decrypt_coalesce access.1 access.2 oldAccess,
              decrypt_coalesce secret.1 secret.2 oldSecret, rfl⟩
            change decrypt fernet setting (coalesce secrets.1 row.sourceDsnEnc) = _
            rw [written]
            exact dsn.1
          · rw [if_neg here, if_neg (fun matched => here (sameId.symm.trans matched))]
            exact read
        · apply List.pairwise_map.mpr
          simp only [kept]
          exact represents.ordered
        · intro row member
          rcases List.mem_map.mp member with ⟨old, listed, rfl⟩
          rw [kept]
          exact represents.issued old listed
      · rw [if_neg free, if_neg free]
        exact Option.Rel.none
  | delete id =>
      refine Option.Rel.some ⟨?_, represents.next, represents.ordered.sublist List.filter_sublist, ?_⟩
      · refine List.rel_filter (fun row conn read => ?_) rows
        rcases rowToConnection_eq_ok.mp read with ⟨_, _, _, _, same⟩
        have sameId : conn.id = row.id := congrArg Connection.id same
        simp only [decide_eq_true_eq, sameId]
      · exact fun row member => represents.issued row (List.mem_of_mem_filter member)

theorem Represents.run (usable : fernetKey fernet setting = .ok key) {table after : Table} {store last : Store}
    (represents : Represents fernet setting table store) {events : List Event}
    (stored : Transition.run (EncryptedRows.step fernet setting) table events = some after)
    (plain : Transition.run plainStep store events = some last) : Represents fernet setting after last := by
  have related := run_lockstep (fun table store event => Represents.step usable table store event) represents events
  rw [stored, plain] at related
  cases related with
  | some ended => exact ended

/-- Whatever is done to connections, the encrypted table takes or refuses it just as
connections with readable secrets do, and loading it gives exactly those
connections. -/
theorem connections_refined (fernet : Fernet) (setting key : String) (usable : fernetKey fernet setting = .ok key)
    (table : Table) (store : Store) (represents : Represents fernet setting table store) (events : List Event) :
    Option.Rel (fun table store => loadAll fernet setting table = .ok store.connections)
      (run (step fernet setting) table events) (run plainStep store events) := by
  have related := run_lockstep (fun table store event => Represents.step usable table store event) represents events
  cases stored : run (step fernet setting) table events with
  | none =>
      cases plain : run plainStep store events with
      | none => exact Option.Rel.none
      | some last => rw [stored, plain] at related; cases related
  | some after =>
      cases plain : run plainStep store events with
      | none => rw [stored, plain] at related; cases related
      | some last =>
          rw [stored, plain] at related
          cases related with
          | some ended => exact Option.Rel.some ended.loadAll

/-! ## When the key is lost -/

/-- The value is no secret in clear: it is empty, or a text that was encrypted with
this key. -/
def AtRest (fernet : Fernet) (key : String) (stored : Option String) : Prop :=
  stored.getD "" = "" ∨ Exists fun nonce : String => Exists fun text : String =>
    text ≠ "" ∧ stored = some (sealed fernet key nonce text)

structure RowAtRest (fernet : Fernet) (key : String) (row : Row) : Prop where
  dsn : AtRest fernet key row.sourceDsnEnc
  access : AtRest fernet key row.awsAccessKeyEnc
  secret : AtRest fernet key row.awsSecretKeyEnc

theorem atRest_encrypt (usable : fernetKey fernet setting = .ok key) {nonce : String} {text stored : Option String}
    (written : encrypt fernet setting nonce text = .ok stored) : AtRest fernet key stored := by
  cases text with
  | none =>
      cases written
      exact Or.inl rfl
  | some text =>
      simp only [encrypt] at written
      split at written
      · rename_i empty
        cases written
        exact Or.inl empty
      · rename_i present
        rw [usable] at written
        cases written
        exact Or.inr ⟨nonce, text, present, rfl⟩

theorem atRest_encryptColumns (usable : fernetKey fernet setting = .ok key) {nonces : Nonces}
    {columns : Store.ConnectionColumns} {secrets : Option String × Option String × Option String}
    (written : encryptColumns fernet setting nonces columns = .ok secrets) (id : Int) :
    RowAtRest fernet key (rowOf columns secrets id) := by
  unfold encryptColumns at written
  cases dsn : encrypt fernet setting nonces.dsn (some columns.sourceDsn) with
  | error reason => rw [dsn] at written; cases written
  | ok first =>
      cases access : encrypt fernet setting nonces.accessKey columns.awsAccessKey with
      | error reason => rw [dsn, access] at written; cases written
      | ok second =>
          cases secret : encrypt fernet setting nonces.secretKey columns.awsSecretKey with
          | error reason => rw [dsn, access, secret] at written; cases written
          | ok third =>
              rw [dsn, access, secret] at written
              cases written
              exact ⟨atRest_encrypt usable dsn, atRest_encrypt usable access, atRest_encrypt usable secret⟩

theorem AtRest.coalesce {new old : Option String} (newAtRest : AtRest fernet key new)
    (oldAtRest : AtRest fernet key old) : AtRest fernet key (coalesce new old) := by
  cases new with
  | none => exact oldAtRest
  | some value => exact newAtRest

theorem RowAtRest.step (usable : fernetKey fernet setting = .ok key) (table : Table) (event : Event) (next : Table)
    (atRest : forall row, row ∈ table.rows -> RowAtRest fernet key row)
    (taken : EncryptedRows.step fernet setting table event = some next) :
    forall row, row ∈ next.rows -> RowAtRest fernet key row := by
  cases event with
  | insert columns nonces =>
      simp only [EncryptedRows.step] at taken
      split at taken
      · cases taken
      · rename_i secrets written
        split at taken
        · cases taken
          intro row member
          rcases List.mem_append.mp member with old | new
          · exact atRest row old
          · rw [List.mem_singleton.mp new]
            exact atRest_encryptColumns usable written _
        · cases taken
  | update id columns nonces =>
      simp only [EncryptedRows.step] at taken
      split at taken
      · cases taken
      · rename_i secrets written
        split at taken
        · cases taken
          intro row member
          rcases List.mem_map.mp member with ⟨old, listed, rfl⟩
          have before := atRest old listed
          have fresh := atRest_encryptColumns usable written id
          unfold updateRow
          split
          · exact ⟨fresh.dsn.coalesce before.dsn, fresh.access.coalesce before.access,
              fresh.secret.coalesce before.secret⟩
          · exact before
        · cases taken
  | delete id =>
      cases taken
      exact fun row member => atRest row (List.mem_of_mem_filter member)

/-- With another key, or none, only empty values can be read. -/
theorem decrypt_lost {other : String} (lost : forall otherKey, fernetKey fernet other = .ok otherKey ->
      forall nonce text, fernet.decrypt otherKey (fernet.encrypt key nonce text) = none)
    {stored text : Option String} (atRest : AtRest fernet key stored) (usable : fernetKey fernet setting = .ok key)
    (read : decrypt fernet setting stored = .ok text) :
    (Exists fun same : Option String => decrypt fernet other stored = .ok same) ↔ text.getD "" = "" := by
  rcases atRest with empty | ⟨nonce, plain, present, rfl⟩
  · cases stored with
    | none =>
        cases read
        exact iff_of_true ⟨none, rfl⟩ rfl
    | some value =>
        cases (empty : value = "")
        cases read
        exact iff_of_true ⟨some "", rfl⟩ rfl
  · rw [decrypt_sealed usable] at read
    cases read
    refine iff_of_false ?_ present
    rintro ⟨same, readable⟩
    rw [decrypt_sealed_eq] at readable
    cases known : fernetKey fernet other with
    | error reason => simp only [known, reduceCtorEq] at readable
    | ok otherKey => simp only [known, lost otherKey known, reduceCtorEq] at readable

/-- The connection has nothing that was encrypted, so its row can be read under any
key. -/
def NoSecrets (conn : Connection) : Prop :=
  conn.sourceDsn = "" ∧ conn.awsAccessKey.getD "" = "" ∧ conn.awsSecretKey.getD "" = ""

theorem rowToConnection_lost {other : String} (lost : forall otherKey, fernetKey fernet other = .ok otherKey ->
      forall nonce text, fernet.decrypt otherKey (fernet.encrypt key nonce text) = none)
    (usable : fernetKey fernet setting = .ok key) {row : Row} {conn : Connection} (atRest : RowAtRest fernet key row)
    (read : rowToConnection fernet setting row = .ok conn) :
    (Exists fun same : Connection => rowToConnection fernet other row = .ok same) ↔ NoSecrets conn := by
  rcases rowToConnection_eq_ok.mp read with ⟨dsn, dsnRead, accessRead, secretRead, same⟩
  have sourceDsn : conn.sourceDsn = dsn.getD "" := congrArg Connection.sourceDsn same
  unfold NoSecrets
  rw [sourceDsn, ← decrypt_lost lost atRest.dsn usable dsnRead, ← decrypt_lost lost atRest.access usable accessRead,
    ← decrypt_lost lost atRest.secret usable secretRead]
  constructor
  · rintro ⟨again, reread⟩
    rcases rowToConnection_eq_ok.mp reread with ⟨first, firstRead, secondRead, thirdRead, _⟩
    exact ⟨⟨first, firstRead⟩, ⟨_, secondRead⟩, ⟨_, thirdRead⟩⟩
  · rintro ⟨⟨first, firstRead⟩, ⟨second, secondRead⟩, ⟨third, thirdRead⟩⟩
    refine ⟨{ conn with sourceDsn := first.getD "", awsAccessKey := second, awsSecretKey := third }, ?_⟩
    refine rowToConnection_eq_ok.mpr ⟨first, firstRead, secondRead, thirdRead, ?_⟩
    rw [same]

theorem loadAll_lost {other : String} (lost : forall otherKey, fernetKey fernet other = .ok otherKey ->
      forall nonce text, fernet.decrypt otherKey (fernet.encrypt key nonce text) = none)
    (usable : fernetKey fernet setting = .ok key) {table : Table} {store : Store}
    (represents : Represents fernet setting table store)
    (atRest : forall row, row ∈ table.rows -> RowAtRest fernet key row) :
    (Exists fun conns : List Connection => loadAll fernet other table = .ok conns) ↔
      forall conn, conn ∈ store.connections -> NoSecrets conn := by
  have inOrder : table.rows.mergeSort (fun first second => decide (first.id ≤ second.id)) = table.rows :=
    List.mergeSort_of_pairwise (represents.ordered.imp (fun less => decide_eq_true (le_of_lt less)))
  unfold loadAll
  rw [inOrder]
  have rows := represents.rows
  revert rows atRest
  generalize table.rows = rows
  generalize store.connections = conns
  intro atRest alike
  simp only [mapM_eq_ok]
  induction alike with
  | nil => exact iff_of_true ⟨[], List.Forall₂.nil⟩ (List.forall_mem_nil _)
  | cons read _ ih =>
      have parts := List.forall_mem_cons.mp atRest
      rw [List.forall_mem_cons, ← rowToConnection_lost lost usable parts.1 read]
      refine Iff.trans ?_ (and_congr Iff.rfl (ih parts.2))
      constructor
      · rintro ⟨_, again⟩
        cases again with
        | cons first rest => exact ⟨⟨_, first⟩, ⟨_, rest⟩⟩
      · rintro ⟨⟨first, firstRead⟩, ⟨rest, restRead⟩⟩
        exact ⟨first :: rest, List.Forall₂.cons firstRead restRead⟩

/-- Nothing is ever stored in clear.  When the key is lost or changed, no connection
at all can be loaded any more, unless none of them has a secret. -/
theorem secrets_at_rest (fernet : Fernet) (setting key other : String) (usable : fernetKey fernet setting = .ok key)
    (lost : forall otherKey, fernetKey fernet other = .ok otherKey ->
      forall nonce text, fernet.decrypt otherKey (fernet.encrypt key nonce text) = none)
    (table after : Table) (store last : Store) (represents : Represents fernet setting table store)
    (atRest : forall row, row ∈ table.rows -> RowAtRest fernet key row) (events : List Event)
    (stored : run (step fernet setting) table events = some after) (plain : run plainStep store events = some last) :
    (forall row, row ∈ after.rows -> RowAtRest fernet key row) ∧
      ((Exists fun conns : List Connection => loadAll fernet other after = .ok conns) ↔
        forall conn, conn ∈ last.connections -> NoSecrets conn) := by
  have still : forall row, row ∈ after.rows -> RowAtRest fernet key row :=
    run_invariant_always (RowAtRest.step usable) atRest stored
  exact ⟨still, loadAll_lost lost usable (represents.run usable stored plain) still⟩

/-- Tokens that say which key they are of. -/
def sampleFernet : Fernet where
  encrypt := fun key nonce text =>
    String.ofList (writeField key.toList ++ (writeField nonce.toList ++ text.toList))
  decrypt := fun key token =>
    (readField token.toList).bind (fun ofKey => (readField ofKey.2).bind (fun ofNonce =>
      if ofKey.1 = key.toList then some (String.ofList ofNonce.2) else none))
  rejects := fun _ => none
  decrypt_encrypt := by
    intro key nonce text
    simp

def noRows : Table :=
  { rows := [], nextId := 1 }

def noConnections : Store :=
  { connections := [], nextConnectionId := 1, selection := [], watermarks := [], chunkState := [], tokens := []
    nextTokenId := 1, users := fun _ => none, settings := fun _ => none, catalog := [], objects := [], runs := []
    nextRunId := 0 }

theorem represents_nothing (fernet : Fernet) (setting : String) : Represents fernet setting noRows noConnections :=
  ⟨List.Forall₂.nil, rfl, List.Pairwise.nil, List.forall_mem_nil _⟩

def sales (accessKey secretKey : Option String) : Store.ConnectionColumns :=
  { name := "sales", enabled := true, sourceDsn := "postgresql://etl:pw@db:5432/sales", awsAccessKey := accessKey
    awsSecretKey := secretKey, awsRegion := "eu-west-1", lakeBucket := "lake", icebergNamespace := "sales" }

def sampleNonces : Nonces :=
  { dsn := "1", accessKey := "2", secretKey := "3" }

/-- The second upsert leaves the keys out. -/
def sampleEdits : List Event :=
  [.insert (sales (some "AKIA") (some "s3cr3t")) sampleNonces, .update 1 (sales none none) sampleNonces]

theorem sales_refined : Option.Rel (fun table store => loadAll sampleFernet "key" table = .ok store.connections)
    (run (step sampleFernet "key") noRows sampleEdits) (run plainStep noConnections sampleEdits) :=
  connections_refined sampleFernet "key" "key" rfl noRows noConnections (represents_nothing _ _) sampleEdits

/-- With another key the connection cannot be loaded. -/
theorem sales_hidden : Exists fun after : Table => Exists fun last : Store =>
    run (step sampleFernet "key") noRows sampleEdits = some after ∧
      run plainStep noConnections sampleEdits = some last ∧
      (forall row, row ∈ after.rows -> RowAtRest sampleFernet "key" row) ∧
      ((Exists fun conns : List Connection => loadAll sampleFernet "lock" after = .ok conns) ↔
        forall conn, conn ∈ last.connections -> NoSecrets conn) := by
  have lost : forall otherKey, fernetKey sampleFernet "lock" = .ok otherKey ->
      forall nonce text, sampleFernet.decrypt otherKey (sampleFernet.encrypt "key" nonce text) = none := by
    rintro otherKey ⟨⟩ nonce text
    simp [sampleFernet]
  exact ⟨_, _, rfl, rfl, secrets_at_rest sampleFernet "key" "key" "lock" rfl lost noRows _ noConnections _
    (represents_nothing _ _) (List.forall_mem_nil _) sampleEdits rfl rfl⟩

end EncryptedRows
end WarehouseSync

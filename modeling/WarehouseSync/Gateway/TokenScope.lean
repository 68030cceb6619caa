import WarehouseSync.Gateway.App
import WarehouseSync.Library.Transition
import Mathlib.Data.List.Nodup

namespace WarehouseSync
namespace TokenScope

open Auth Checks ConfigStore App Chunks Transition

/-!
# What a token of one connection can change

`Others` is everything that does not belong to the connection a token is scoped
to: the records, selections, watermarks, tokens and lake tables of the other
connections, the users and the settings.  A lake table is its catalog entry
together with what S3 holds under each of its files.

Endpoints that name a connection check the scope.  Those that name none, or name
it in the body only, just ask for the admin role, and a wipe of a bucket that two
connections share reaches the files of both.  `Reaches` is that list; a run of
requests leaves the others alone exactly as long as it stays off the list.
-/

/-- What belongs to the other connections and to the gateway as a whole, with the
content of their lake tables. -/
@[ext]
structure Others where
  connections : List Connection
  selection : List SelectionRow
  watermarks : List WatermarkRow
  tokens : List ApiToken
  tables : List (CatalogTable × List (Option String))
  users : String -> Option User
  settings : String -> Option String

/-- What S3 holds under a file of a table.  The tables of others are compared by
this, so that deleting a file counts as changing the table. -/
def content (store : Store) (file : String × String) : Option String :=
  (store.objects.find? (fun object => decide ((object.bucket, object.key) = file))).map S3Object.content

def otherConnections (c : Int) (store : Store) : List Connection :=
  store.connections.filter (fun conn => decide (conn.id ≠ c))

/-- The catalog entries in the namespaces of other connections.  Entries of no
connection belong to nobody. -/
def otherTables (c : Int) (store : Store) : List CatalogTable :=
  store.catalog.filter (fun table =>
    ((otherConnections c store).map Connection.icebergNamespace).contains table.namespaceName)

def others (c : Int) (store : Store) : Others :=
  { connections := otherConnections c store
    selection := store.selection.filter (fun row => decide (row.connectionId ≠ c))
    watermarks := store.watermarks.filter (fun row => decide (row.connectionId ≠ c))
    tokens := store.tokens.filter (fun row => decide (row.connectionId ≠ c))
    tables := (otherTables c store).map (fun table => (table, table.files.map (content store)))
    users := store.users
    settings := store.settings }

/-- What a job does to the connection it was launched for.  Any such work is
allowed, whatever the jobs really do. -/
inductive Work where
  /-- A commit to a table, or its recreation: some files go, fresh ones come. -/
  | writeTable (name : String) (dropped : List (String × String)) (added : List S3Object)
  | setWatermark (tableFqn : String) (row : Watermarks.Row)
  | putChunk (record : ChunkRecord)

/-- File names carry fresh UUIDs or the id of the run: nothing is stored under the
key yet, and no table lists it. -/
def fresh (store : Store) (object : S3Object) : Bool :=
  store.objects.all (fun present => (present.bucket, present.key) != (object.bucket, object.key)) &&
    store.catalog.all (fun table => !table.files.contains (object.bucket, object.key))

/-- A commit to a table of the connection.  It may drop files from the table, but
deletes no object. -/
def writeTable (store : Store) (conn : Connection) (name : String) (dropped : List (String × String))
    (added : List S3Object) : Store :=
  let own := fun table : CatalogTable =>
    decide (table.namespaceName = conn.icebergNamespace ∧ table.name = name)
  let before := (store.catalog.find? own).elim [] CatalogTable.files
  { store with
    catalog := store.catalog.filter (fun table => !own table) ++
      [{ namespaceName := conn.icebergNamespace, name := name
         files := before.filter (fun file => !dropped.contains file) ++
           added.map (fun object => (object.bucket, object.key)) }]
    objects := store.objects ++ added }

/-- One step of a job.  Rows go under the id of its connection, and tables under the
namespace that the connection has now. -/
def carryOut (store : Store) (id : Int) : Work -> Option Store
  | .writeTable name dropped added =>
      match store.getConnection id with
      | none => none
      | some conn =>
          if added.all (fresh store) = true then some (writeTable store conn name dropped added) else none
  | .setWatermark tableFqn row => some { store with
      watermarks := store.watermarks.filter (fun old =>
        !decide (old.connectionId = id ∧ old.tableFqn = tableFqn)) ++
          [{ connectionId := id, tableFqn := tableFqn, row := row }] }
  | .putChunk record => some { store with
      chunkState := Chunks.put { record with connectionId := id } store.chunkState }

inductive Event where
  | request (request : Request) (call : Call) (answers : Answers)
  | work (runId : Nat) (work : Work)

/-- The events that tokens of connection `c` bring about: requests that carry one,
and the work of runs launched for it. -/
def step (services : Services) (config : AuthConfig) (c : Int) (store : Store) : Event -> Option Store
  | .request request call answers =>
      match requestToken services store.tokens request with
      | some row =>
          if row.connectionId = c then some (serve services config answers request call store) else none
      | none => none
  | .work runId work =>
      if store.runs.any (fun run => decide (run.runId = runId ∧ run.connectionId = c)) = true then
        carryOut store c work
      else none

/-- What the constraints of the database guarantee: ids and namespaces of
connections are unique, and every id in use has been issued.  It is kept by every
step, so it is an assumption on the first state only. -/
structure WellFormed (store : Store) : Prop where
  idsOnce : (store.connections.map Connection.id).Nodup
  namespacesOnce : (store.connections.map Connection.icebergNamespace).Nodup
  issued : forall conn, conn ∈ store.connections -> conn.id < store.nextConnectionId
  tokensIssued : forall row, row ∈ store.tokens -> row.connectionId < store.nextConnectionId

/-- The endpoint changes something of the others if an admin of `c` calls it.  It is
a condition on the call and on the state before it, endpoint by endpoint. -/
def Reaches (services : Services) (answers : Answers) (c : Int) (store : Store) : Call -> Prop
  | .createConnection body => Exists fun columns : Store.ConnectionColumns =>
      newColumns answers body = .ok columns ∧ store.unused columns none = true
  | .wipeConnection id => id = c ∧ Exists fun conn : Connection => store.getConnection c = some conn ∧
      Exists fun table : CatalogTable => Exists fun file : String × String =>
        table ∈ otherTables c store ∧ file ∈ table.files ∧ (content store file).isSome = true ∧
          Store.wipes conn file.1 file.2 = true ∧ file ∉ answers.undeletedObjects
  | .writeSettings values => Exists fun entry : String × String =>
      entry ∈ values.entries ∧ entry.1 ∈ editableSettingKeys ∧ store.settings entry.1 ≠ some entry.2
  | .createToken body => body.connectionId ≠ c ∧ (store.getConnection body.connectionId).isSome = true ∧
      forall row, row ∈ store.tokens -> row.tokenHash ≠ services.hash ("vmt_" ++ answers.secret)
  | .revokeToken tokenId => Exists fun row : ApiToken =>
      row ∈ store.tokens ∧ row.id = tokenId ∧ row.connectionId ≠ c ∧ row.revoked = false
  | .upsertUser body => store.users (Store.normalEmail body.email) ≠
      some { role := Store.storedRole body.role, enabled := body.enabled }
  | .deleteUser email => store.users (Store.normalEmail email) ≠ none
  | _ => False

/-- The event stays within the connection of the token.  A viewer's token has
nothing to reach, as all changes are for administrators. -/
def StaysWithin (services : Services) (c : Int) (store : Store) : Event -> Prop
  | .request request call answers => forall row, requestToken services store.tokens request = some row ->
      row.role = "admin" -> ¬ Reaches services answers c store call
  | .work _ _ => True

variable {services : Services} {config : AuthConfig} {answers : Answers} {request : Request} {c : Int}
  {store after : Store}

/-! ## Frame lemmas -/

/-- No other connection has the namespace of `c`. -/
theorem WellFormed.namespace_ne (formed : WellFormed store) {conn other : Connection}
    (found : store.getConnection c = some conn) (member : other ∈ otherConnections c store) :
    other.icebergNamespace ≠ conn.icebergNamespace := by
  rcases Store.getConnection_eq_some found with ⟨present, own⟩
  rcases List.mem_filter.mp member with ⟨listed, different⟩
  intro same
  have one : other = conn := List.inj_on_of_nodup_map formed.namespacesOnce listed present same
  subst one
  exact of_decide_eq_true different own

/-- What is not in the namespace of `c` may be dropped or replaced there. -/
theorem filter_otherTables (formed : WellFormed store) {conn : Connection}
    (found : store.getConnection c = some conn) {kept : CatalogTable -> Bool}
    (outside : forall table, table.namespaceName ≠ conn.icebergNamespace -> kept table = true) :
    (store.catalog.filter kept).filter (fun table =>
      ((otherConnections c store).map Connection.icebergNamespace).contains table.namespaceName) =
        otherTables c store := by
  unfold otherTables
  rw [List.filter_filter]
  apply List.filter_congr
  intro table _
  cases listed : ((otherConnections c store).map Connection.icebergNamespace).contains
      table.namespaceName with
  | false => rfl
  | true =>
      rcases List.mem_map.mp (List.contains_iff_mem.mp listed) with ⟨other, member, named⟩
      have different := formed.namespace_ne found member
      rw [outside table (named ▸ different), Bool.true_and]

/-- A file is lost exactly if the wipe covers it and its deletion succeeds. -/
theorem content_deletePrefixes (conn : Connection) (failed : List (String × String))
    (file : String × String) :
    content (store.deletePrefixes conn failed) file =
      if Store.wipes conn file.1 file.2 = true ∧ file ∉ failed then none else content store file := by
  unfold content Store.deletePrefixes
  rw [List.find?_filter]
  by_cases lost : Store.wipes conn file.1 file.2 = true ∧ file ∉ failed
  · rw [if_pos lost, Option.map_eq_none_iff, List.find?_eq_none]
    intro object _
    simp only [decide_eq_true_eq, not_and]
    rintro kept rfl
    simp [lost.1, lost.2] at kept
  · rw [if_neg lost]
    congr 2
    funext object
    by_cases same : (object.bucket, object.key) = file
    · subst same
      simp only [not_and, not_not] at lost
      cases covered : Store.wipes conn object.bucket object.key with
      | false => simp
      | true => simp [lost covered]
    · simp [same]

/-- A table is left alone exactly if every file of it that exists is. -/
theorem tables_deletePrefixes_iff (conn : Connection) (failed : List (String × String))
    (tables : List CatalogTable) :
    tables.map (fun table => (table, table.files.map (content (store.deletePrefixes conn failed)))) =
        tables.map (fun table => (table, table.files.map (content store))) ↔
      forall table, table ∈ tables -> forall file, file ∈ table.files ->
        (content store file).isSome = true -> Store.wipes conn file.1 file.2 = true -> file ∈ failed := by
  rw [List.map_inj_left]
  refine forall₂_congr fun table _ => ?_
  rw [Prod.mk.injEq, and_iff_right rfl, List.map_inj_left]
  refine forall₂_congr fun file _ => ?_
  rw [content_deletePrefixes]
  by_cases lost : Store.wipes conn file.1 file.2 = true ∧ file ∉ failed
  · rw [if_pos lost]
    cases content store file with
    | none => simp
    | some text => simp [lost.1, lost.2]
  · rw [if_neg lost]
    simp only [true_iff]
    intro _ covered
    by_contra missing
    exact lost ⟨covered, missing⟩

/-- Fresh objects change nothing under the files of tables in the catalog. -/
theorem content_append {added : List S3Object}
    (checked : added.all (fresh store) = true) {table : CatalogTable}
    (member : table ∈ store.catalog) {file : String × String} (listed : file ∈ table.files)
    (grown : Store) (same : grown.objects = store.objects ++ added) :
    content grown file = content store file := by
  unfold content
  rw [same, List.find?_append]
  have absent : added.find? (fun object => decide ((object.bucket, object.key) = file)) = none := by
    rw [List.find?_eq_none]
    intro object new
    simp only [decide_eq_true_eq]
    rintro rfl
    have unlisted := List.all_eq_true.mp checked object new
    simp only [fresh, Bool.and_eq_true, List.all_eq_true] at unlisted
    have missing := unlisted.2 table member
    simp [listed] at missing
  rw [absent, Option.or_none]

/-- The tables are read off the catalog, the objects and the other records. -/
theorem tables_congr (connections : otherConnections c after = otherConnections c store)
    (catalog : after.catalog = store.catalog) (objects : after.objects = store.objects) :
    (others c after).tables = (others c store).tables := by
  unfold others otherTables content
  rw [connections, catalog, objects]

theorem filter_twice {α : Type} (foreign : α -> Bool) (rows : List α) :
    (rows.filter foreign).filter foreign = rows.filter foreign := by
  rw [List.filter_filter]
  simp only [Bool.and_self]

theorem others_insertConnection (formed : WellFormed store) {row : ApiToken} (member : row ∈ store.tokens)
    (own : row.connectionId = c) {columns : Store.ConnectionColumns}
    (done : store.insertConnection columns = some after) : others c after ≠ others c store := by
  rcases Store.insertConnection_eq_some done with ⟨_, rfl⟩
  intro same
  have known := formed.tokensIssued row member
  have new : store.nextConnectionId ≠ c := by omega
  have grown := congrArg (fun view : Others => view.connections.length) same
  simp [others, otherConnections, List.filter_append, Store.ConnectionColumns.row, new] at grown

theorem others_updateConnection {columns : Store.ConnectionColumns}
    (done : store.updateConnection c columns = some after) : others c after = others c store := by
  rcases Store.updateConnection_eq_some done with ⟨_, rfl⟩
  have kept : (store.connections.map (columns.update c)).filter (fun conn => decide (conn.id ≠ c)) =
      otherConnections c store := by
    unfold otherConnections
    induction store.connections with
    | nil => rfl
    | cons conn rest ih =>
        rw [List.map_cons, List.filter_cons, List.filter_cons, ih]
        by_cases own : conn.id = c
        · simp [Store.ConnectionColumns.update, Store.ConnectionColumns.row, own]
        · simp [Store.ConnectionColumns.update, own]
  exact Others.ext kept rfl rfl rfl (tables_congr kept rfl rfl) rfl rfl

theorem others_deleteConnection : others c (store.deleteConnection c) = others c store := by
  have kept : otherConnections c (store.deleteConnection c) = otherConnections c store := by
    unfold otherConnections Store.deleteConnection
    exact filter_twice _ _
  have selection : (others c (store.deleteConnection c)).selection = (others c store).selection := by
    unfold others Store.deleteConnection
    exact filter_twice _ _
  exact Others.ext kept selection rfl rfl (tables_congr kept rfl rfl) rfl rfl

theorem others_setSelection {items : List SelectionRow} (done : store.setSelection c items = some after) :
    others c after = others c store := by
  cases Store.setSelection_eq_some done
  have rows : (store.selection.filter (fun row : SelectionRow => decide (row.connectionId ≠ c)) ++
      items.map (fun item : SelectionRow => { item with connectionId := c })).filter
        (fun row : SelectionRow => decide (row.connectionId ≠ c)) =
      store.selection.filter (fun row => decide (row.connectionId ≠ c)) := by
    have replaced : (items.map (fun item : SelectionRow => { item with connectionId := c })).filter
        (fun row : SelectionRow => decide (row.connectionId ≠ c)) = [] := by
      rw [List.filter_eq_nil_iff]
      intro row member
      rcases List.mem_map.mp member with ⟨item, _, rfl⟩
      simp
    rw [List.filter_append, replaced, List.append_nil, filter_twice]
  exact Others.ext rfl rows rfl rfl rfl rfl rfl

/-- A wipe keeps to its connection unless it deletes a file of another table. -/
theorem others_wipeConnection_iff (formed : WellFormed store)
    (done : wipeConnection answers c store = .ok after) :
    others c after = others c store ↔ ¬ Reaches services answers c store (.wipeConnection c) := by
  rcases wipeConnection_eq_ok.mp done with ⟨conn, found, wiped⟩
  have watermarks : (store.watermarks.filter (fun row => decide (row.connectionId ≠ c))).filter
      (fun row => decide (row.connectionId ≠ c)) =
        store.watermarks.filter (fun row => decide (row.connectionId ≠ c)) :=
    filter_twice _ _
  have tables : (others c after).tables = (otherTables c store).map (fun table =>
      (table, table.files.map (content (store.deletePrefixes conn answers.undeletedObjects)))) := by
    subst wiped
    rw [← filter_otherTables formed found (fun _ different => decide_eq_true different)]
    rfl
  have same_iff : others c after = others c store ↔ (others c after).tables = (others c store).tables := by
    refine ⟨congrArg Others.tables, fun same => ?_⟩
    subst wiped
    exact Others.ext rfl rfl watermarks rfl same rfl rfl
  rw [same_iff, tables]
  apply (tables_deletePrefixes_iff conn answers.undeletedObjects (otherTables c store)).trans
  constructor
  · rintro kept ⟨_, own, known, table, file, member, listed, present, covered, missing⟩
    cases found.symm.trans known
    exact missing (kept table member file listed present covered)
  · intro within table member file listed present covered
    by_contra missing
    exact within ⟨rfl, conn, found, table, file, member, listed, present, covered, missing⟩

theorem settings_foldl_of_notMem {entries : List (String × String)} {key : String}
    (absent : key ∉ entries.map Prod.fst) :
    (entries.foldl writeSetting store).settings key = store.settings key := by
  induction entries generalizing store with
  | nil => rfl
  | cons entry rest ih =>
      rw [List.map_cons, List.mem_cons, not_or] at absent
      rw [List.foldl_cons, ih absent.2]
      unfold writeSetting
      split
      · exact Function.update_of_ne absent.1 _ _
      · rfl

/-- A setting takes the value the dictionary has for it, if it is editable. -/
theorem settings_foldl_of_mem {entries : List (String × String)} {entry : String × String}
    (once : (entries.map Prod.fst).Nodup) (member : entry ∈ entries) :
    (entries.foldl writeSetting store).settings entry.1 =
      if entry.1 ∈ editableSettingKeys then some entry.2 else store.settings entry.1 := by
  induction entries generalizing store with
  | nil => cases member
  | cons first rest ih =>
      rw [List.map_cons, List.nodup_cons] at once
      rcases List.mem_cons.mp member with rfl | later
      · rw [List.foldl_cons, settings_foldl_of_notMem once.1]
        unfold writeSetting
        by_cases editable : entry.1 ∈ editableSettingKeys
        · simp [editable, Store.setSetting]
        · simp [editable]
      · rw [List.foldl_cons, ih once.2 later]
        have different : entry.1 ≠ first.1 := fun same =>
          once.1 (same ▸ List.mem_map_of_mem later)
        have kept : (writeSetting store first).settings entry.1 = store.settings entry.1 := by
          unfold writeSetting
          split
          · exact Function.update_of_ne different _ _
          · rfl
        rw [kept]

theorem writeSettings_eq (store : Store) (entries : List (String × String)) :
    entries.foldl writeSetting store =
      { store with settings := (entries.foldl writeSetting store).settings } := by
  induction entries generalizing store with
  | nil => rfl
  | cons entry rest ih =>
      rw [List.foldl_cons, ih]
      unfold writeSetting
      split <;> rfl

theorem others_writeSettings_iff (values : SettingValues) :
    others c (writeSettings values store) = others c store ↔
      ¬ Reaches services answers c store (.writeSettings values) := by
  have settings : forall entry, entry ∈ values.entries ->
      (writeSettings values store).settings entry.1 =
        if entry.1 ∈ editableSettingKeys then some entry.2 else store.settings entry.1 :=
    fun entry member => settings_foldl_of_mem values.keysOnce member
  constructor
  · rintro same ⟨entry, member, editable, different⟩
    have unchanged := congrFun (congrArg Others.settings same) entry.1
    have written := settings entry member
    rw [if_pos editable] at written
    exact different (unchanged.symm.trans written)
  · intro within
    have unchanged : (writeSettings values store).settings = store.settings := by
      funext key
      by_cases listed : key ∈ values.entries.map Prod.fst
      · rcases List.mem_map.mp listed with ⟨entry, member, rfl⟩
        rw [settings entry member]
        by_cases editable : entry.1 ∈ editableSettingKeys
        · rw [if_pos editable]
          by_contra different
          exact within ⟨entry, member, editable, fun same => different same.symm⟩
        · rw [if_neg editable]
      · exact settings_foldl_of_notMem listed
    have whole := writeSettings_eq store values.entries
    unfold writeSettings at unchanged ⊢
    rw [whole, unchanged]

theorem others_createToken_iff {body : TokenIn} (done : createToken services answers body store = .ok after) :
    others c after = others c store ↔ ¬ Reaches services answers c store (.createToken body) := by
  unfold createToken at done
  split at done
  · cases done
  · rename_i conn found
    rcases orFail_eq_ok.mp done with done
    rcases Store.createApiToken_eq_some done with ⟨unusedHash, row, target, rfl⟩
    by_cases own : body.connectionId = c
    · refine ⟨fun _ reached => reached.1 own, fun _ => ?_⟩
      have tokens : (store.tokens ++ [row]).filter (fun row => decide (row.connectionId ≠ c)) =
          store.tokens.filter (fun row => decide (row.connectionId ≠ c)) := by
        simp [List.filter_append, target, own]
      exact Others.ext rfl rfl rfl tokens rfl rfl rfl
    · refine ⟨fun same => ?_, fun within => ?_⟩
      · have grown := congrArg (fun view : Others => view.tokens.length) same
        simp [others, List.filter_append, target, own] at grown
      · exact absurd ⟨own, found ▸ rfl, unusedHash⟩ within

theorem others_revokeApiToken_iff (tokenId : Nat) :
    others c (store.revokeApiToken tokenId) = others c store ↔
      ¬ Reaches services answers c store (.revokeToken tokenId) := by
  have tokens : (others c (store.revokeApiToken tokenId)).tokens = (others c store).tokens.map
      (fun row => if row.id = tokenId then { row with revoked := true } else row) := by
    change (store.tokens.map _).filter _ = (store.tokens.filter _).map _
    rw [List.filter_map]
    congr 1
    apply List.filter_congr
    intro row _
    change decide ((if row.id = tokenId then _ else row).connectionId ≠ c) = _
    split <;> rfl
  constructor
  · rintro same ⟨row, member, named, foreign, valid⟩
    have fixed : (others c store).tokens.map
        (fun row => if row.id = tokenId then { row with revoked := true } else row) =
          (others c store).tokens.map id := by
      rw [← tokens, same, List.map_id]
    have revoked := List.map_inj_left.mp fixed row (List.mem_filter.mpr ⟨member, decide_eq_true foreign⟩)
    rw [if_pos named] at revoked
    have contrary := congrArg ApiToken.revoked revoked
    rw [id, valid] at contrary
    cases contrary
  · intro within
    have fixed : (others c (store.revokeApiToken tokenId)).tokens = (others c store).tokens := by
      rw [tokens]
      conv => rhs; rw [← List.map_id (others c store).tokens]
      apply List.map_inj_left.mpr
      intro row listed
      rcases List.mem_filter.mp listed with ⟨member, foreign⟩
      by_cases named : row.id = tokenId
      · rw [if_pos named]
        have revoked : row.revoked = true := by
          by_contra valid
          exact within ⟨row, member, named, of_decide_eq_true foreign, Bool.not_eq_true _ ▸ valid⟩
        cases row
        cases revoked
        rfl
      · rw [if_neg named]
        rfl
    exact Others.ext rfl rfl rfl fixed rfl rfl rfl

theorem others_users_iff (email : String) (user : Option User) :
    others c { store with users := Function.update store.users email user } = others c store ↔
      store.users email = user := by
  constructor
  · intro same
    have users : Function.update store.users email user email = store.users email :=
      congrFun (congrArg Others.users same) email
    rw [← users]
    exact Function.update_self email user store.users
  · rintro rfl
    have users : Function.update store.users email (store.users email) = store.users :=
      Function.update_eq_self email store.users
    exact Others.ext rfl rfl rfl rfl rfl users rfl

/-! ## One step -/

/-- Within its scope an endpoint that succeeds changes something of the others
exactly if it is on the list. -/
theorem others_perform_iff (formed : WellFormed store) {row : ApiToken} (member : row ∈ store.tokens)
    (own : row.connectionId = c) {call : Call} (scope : forall id, scopeOf call = some id -> id = c)
    (done : perform services answers store call = .ok after) :
    others c after = others c store ↔ ¬ Reaches services answers c store call := by
  cases call with
  | read reading =>
      cases done
      exact ⟨fun _ reached => reached, fun _ => rfl⟩
  | createConnection body =>
      rcases bind_eq_ok.mp done with ⟨columns, checked, inserted⟩
      have inserted := orFail_eq_ok.mp inserted
      have free := (Store.insertConnection_eq_some inserted).1
      exact ⟨fun same => absurd same (others_insertConnection formed member own inserted),
        fun within => absurd ⟨columns, checked, free⟩ within⟩
  | updateConnection id body =>
      cases scope id rfl
      refine ⟨fun _ reached => reached, fun _ => ?_⟩
      rcases updateConnection_eq_ok done with ⟨columns, stored⟩
      exact others_updateConnection stored
  | deleteConnection id =>
      cases scope id rfl
      cases done
      exact ⟨fun _ reached => reached, fun _ => others_deleteConnection⟩
  | wipeConnection id =>
      cases scope id rfl
      exact others_wipeConnection_iff formed done
  | setSelection id items =>
      cases scope id rfl
      exact ⟨fun _ reached => reached, fun _ => others_setSelection (orFail_eq_ok.mp done)⟩
  | writeSettings values =>
      cases done
      exact others_writeSettings_iff values
  | createToken body => exact others_createToken_iff done
  | revokeToken tokenId =>
      cases done
      exact others_revokeApiToken_iff tokenId
  | upsertUser body =>
      cases done
      exact (others_users_iff _ _).trans not_not.symm
  | deleteUser email =>
      cases done
      exact (others_users_iff _ _).trans not_not.symm
  | launchRun body =>
      rw [launchRun_eq_ok done]
      exact ⟨fun _ reached => reached, fun _ => rfl⟩

/-- What is on the list succeeds. -/
theorem perform_of_reaches {call : Call} (reached : Reaches services answers c store call) :
    Exists fun after : Store => perform services answers store call = .ok after := by
  cases call with
  | createConnection body =>
      rcases reached with ⟨columns, checked, free⟩
      have stored : store.insertConnection columns = some { store with
          connections := store.connections ++ [columns.row store.nextConnectionId]
          nextConnectionId := store.nextConnectionId + 1 } := if_pos free
      exact ⟨_, bind_eq_ok.mpr ⟨columns, checked, orFail_eq_ok.mpr stored⟩⟩
  | wipeConnection id =>
      rcases reached with ⟨rfl, conn, found, _⟩
      change Exists fun after : Store => wipeConnection answers _ store = .ok after
      unfold wipeConnection
      rw [found]
      exact ⟨_, rfl⟩
  | createToken body =>
      rcases reached with ⟨_, known, unusedHash⟩
      rcases Option.isSome_iff_exists.mp known with ⟨conn, found⟩
      have free : ¬ store.tokens.any
          (fun row => row.tokenHash == services.hash ("vmt_" ++ answers.secret)) = true := by
        rw [List.any_eq_true]
        rintro ⟨row, member, same⟩
        exact unusedHash row member (beq_iff_eq.mp same)
      change Exists fun after : Store => createToken services answers body store = .ok after
      unfold createToken Store.createApiToken
      rw [found]
      simp only [if_neg free]
      exact ⟨_, rfl⟩
  | writeSettings values => exact ⟨_, rfl⟩
  | revokeToken tokenId => exact ⟨_, rfl⟩
  | upsertUser body => exact ⟨_, rfl⟩
  | deleteUser email => exact ⟨_, rfl⟩
  | read reading => exact reached.elim
  | updateConnection id body => exact reached.elim
  | deleteConnection id => exact reached.elim
  | setSelection id items => exact reached.elim
  | launchRun body => exact reached.elim

theorem scopeOf_of_reaches {call : Call} (reached : Reaches services answers c store call) :
    adminOnly call = true ∧ forall id, scopeOf call = some id -> id = c := by
  cases call with
  | wipeConnection id =>
      refine ⟨rfl, ?_⟩
      rintro other ⟨⟩
      exact reached.1
  | read reading => exact reached.elim
  | updateConnection id body => exact reached.elim
  | deleteConnection id => exact reached.elim
  | setSelection id items => exact reached.elim
  | launchRun body => exact reached.elim
  | _ => exact ⟨rfl, fun id scope => by cases scope⟩

/-- A commit to a table of `c` leaves the tables of the others alone. -/
theorem tables_writeTable (formed : WellFormed store) {conn : Connection}
    (found : store.getConnection c = some conn) {name : String} {dropped : List (String × String)}
    {added : List S3Object} (checked : added.all (fresh store) = true) :
    (others c (writeTable store conn name dropped added)).tables = (others c store).tables := by
  have foreign : ((otherConnections c store).map Connection.icebergNamespace).contains
      conn.icebergNamespace = false := by
    apply Bool.eq_false_iff.mpr
    intro listed
    rcases List.mem_map.mp (List.contains_iff_mem.mp listed) with ⟨other, member, same⟩
    exact formed.namespace_ne found member same
  have catalog : otherTables c (writeTable store conn name dropped added) = otherTables c store := by
    change ((store.catalog.filter _) ++ [_]).filter (fun table : CatalogTable =>
      ((otherConnections c store).map Connection.icebergNamespace).contains table.namespaceName) = _
    rw [List.filter_append]
    rw [filter_otherTables formed found (fun table different => by simp [different])]
    simp only [List.filter_cons, foreign, List.filter_nil]
    exact List.append_nil _
  unfold others
  simp only [catalog]
  apply List.map_congr_left
  intro table member
  have listed := (List.mem_filter.mp member).1
  have files : table.files.map (content (writeTable store conn name dropped added)) =
      table.files.map (content store) :=
    List.map_congr_left (fun file present => content_append checked listed present _ rfl)
  rw [files]

theorem others_carryOut (formed : WellFormed store) {work : Work}
    (done : carryOut store c work = some after) : others c after = others c store := by
  cases work with
  | writeTable name dropped added =>
      simp only [carryOut] at done
      split at done
      · cases done
      · rename_i conn found
        split at done
        · rename_i checked
          cases done
          exact Others.ext rfl rfl rfl rfl (tables_writeTable formed found checked) rfl rfl
        · cases done
  | setWatermark tableFqn row =>
      cases done
      have watermarks : (store.watermarks.filter (fun old : WatermarkRow =>
          !decide (old.connectionId = c ∧ old.tableFqn = tableFqn)) ++
            [({ connectionId := c, tableFqn := tableFqn, row := row } : WatermarkRow)]).filter
              (fun row : WatermarkRow => decide (row.connectionId ≠ c)) =
          store.watermarks.filter (fun row => decide (row.connectionId ≠ c)) := by
        rw [List.filter_append, List.filter_filter]
        have dropped : [({ connectionId := c, tableFqn := tableFqn, row := row } : WatermarkRow)].filter
            (fun row => decide (row.connectionId ≠ c)) = [] := by simp
        rw [dropped, List.append_nil]
        apply List.filter_congr
        intro old _
        by_cases own : old.connectionId = c
        · simp [own]
        · simp [own]
      exact Others.ext rfl rfl watermarks rfl rfl rfl rfl
  | putChunk record =>
      cases done
      rfl

/-- The guards of a token let an admin through within its connection. -/
theorem guards_tokenPrincipal {row : ApiToken} {call : Call} :
    guards (tokenPrincipal row) call = .ok () ↔
      (adminOnly call = true -> row.role = "admin") ∧
        forall id, scopeOf call = some id -> id = row.connectionId := by
  have role : (tokenPrincipal row).isAdmin = true ↔ row.role = "admin" := by
    unfold tokenPrincipal Principal.isAdmin
    rw [List.contains_iff_mem, List.mem_singleton, eq_comm]
  rw [guards_eq_ok, role]
  apply and_congr_right'
  refine forall₂_congr fun id _ => ?_
  change (some row.connectionId = none ∨ some row.connectionId = some id) ↔ id = row.connectionId
  rw [Option.some.injEq, @eq_comm Int id]
  exact or_iff_right (Option.some_ne_none row.connectionId)

theorem others_step_iff (formed : WellFormed store) {event : Event}
    (taken : step services config c store event = some after) :
    others c after = others c store ↔ StaysWithin services c store event := by
  cases event with
  | work runId work =>
      simp only [step] at taken
      split at taken
      · exact ⟨fun _ => trivial, fun _ => others_carryOut formed taken⟩
      · cases taken
  | request request call answers =>
      simp only [step] at taken
      split at taken
      · rename_i row found
        split at taken
        · rename_i own
          cases taken
          rcases Option.bind_eq_some_iff.mp found with ⟨bearer, _, verified⟩
          have member := (verifyApiToken_eq_some verified).1
          have principal : currentPrincipal services config store.tokens request =
              .ok (tokenPrincipal row) := by
            unfold currentPrincipal
            rw [found]
          have stays : StaysWithin services c store (.request request call answers) ↔
              (row.role = "admin" -> ¬ Reaches services answers c store call) := by
            refine ⟨fun all => all row found, fun one other same => ?_⟩
            cases found.symm.trans same
            exact one
          rw [stays]
          simp only [serve, principal]
          cases handled : handle services answers (tokenPrincipal row) call store with
          | ok after =>
              rcases handle_eq_ok.mp handled with ⟨passed, done⟩
              have guarded := guards_tokenPrincipal.mp passed
              have perform_iff := others_perform_iff formed member own
                (fun id scope => (guarded.2 id scope).trans own) done
              refine perform_iff.trans ⟨fun within _ => within, fun within reached => ?_⟩
              exact within (guarded.1 (scopeOf_of_reaches reached).1) reached
          | error rejection =>
              refine ⟨fun _ admin reached => ?_, fun _ => rfl⟩
              rcases scopeOf_of_reaches reached with ⟨_, scope⟩
              rcases perform_of_reaches reached with ⟨after, done⟩
              have passed : guards (tokenPrincipal row) call = .ok () :=
                guards_tokenPrincipal.mpr ⟨fun _ => admin, fun id named => (scope id named).trans own.symm⟩
              cases handled.symm.trans (handle_eq_ok.mpr ⟨passed, done⟩)
        · cases taken
      · cases taken

/-! ## The invariant is kept -/

theorem WellFormed.insertConnection (formed : WellFormed store) {columns : Store.ConnectionColumns}
    (done : store.insertConnection columns = some after) : WellFormed after := by
  rcases Store.insertConnection_eq_some done with ⟨free, rfl⟩
  have unusedNamespace : forall conn, conn ∈ store.connections ->
      conn.icebergNamespace ≠ columns.icebergNamespace := by
    intro conn member
    have checked := List.all_eq_true.mp free conn member
    simp only [reduceCtorEq, decide_false, Bool.false_or, Bool.and_eq_true, bne_iff_ne] at checked
    exact checked.2
  refine ⟨?_, ?_, ?_, ?_⟩
  · rw [List.map_append]
    apply List.nodup_append'.mpr
    refine ⟨formed.idsOnce, List.nodup_singleton _, ?_⟩
    intro id old new
    rcases List.mem_map.mp old with ⟨conn, member, rfl⟩
    have issued := formed.issued conn member
    have same : conn.id = store.nextConnectionId := List.mem_singleton.mp new
    omega
  · rw [List.map_append]
    apply List.nodup_append'.mpr
    refine ⟨formed.namespacesOnce, List.nodup_singleton _, ?_⟩
    intro name old new
    rcases List.mem_map.mp old with ⟨conn, member, rfl⟩
    exact unusedNamespace conn member (List.mem_singleton.mp new)
  · intro conn member
    change conn.id < store.nextConnectionId + 1
    rcases List.mem_append.mp member with old | new
    · have issued := formed.issued conn old
      omega
    · rw [List.mem_singleton.mp new]
      change store.nextConnectionId < store.nextConnectionId + 1
      omega
  · intro row member
    have issued := formed.tokensIssued row member
    change row.connectionId < store.nextConnectionId + 1
    omega

theorem WellFormed.updateConnection (formed : WellFormed store) {id : Int}
    {columns : Store.ConnectionColumns} (done : store.updateConnection id columns = some after) :
    WellFormed after := by
  rcases Store.updateConnection_eq_some done with ⟨free, rfl⟩
  have unusedNamespace : forall conn, conn ∈ store.connections -> conn.id ≠ id ->
      conn.icebergNamespace ≠ columns.icebergNamespace := by
    intro conn member different
    have checked := List.all_eq_true.mp free conn member
    simp only [Option.some.injEq, Ne.symm different, decide_false, Bool.false_or, Bool.and_eq_true,
      bne_iff_ne] at checked
    exact checked.2
  refine ⟨?_, ?_, ?_, formed.tokensIssued⟩
  · have same : (store.connections.map (columns.update id)).map Connection.id =
        store.connections.map Connection.id := by
      rw [List.map_map]
      exact List.map_congr_left (fun conn _ => columns.id_update id conn)
    exact same ▸ formed.idsOnce
  · rw [List.map_map]
    apply List.Nodup.map_on ?_ formed.idsOnce.of_map
    intro first firstMember second secondMember same
    simp only [Function.comp_apply, Store.ConnectionColumns.update] at same
    split at same
    · rename_i own
      split at same
      · rename_i alsoOwn
        exact List.inj_on_of_nodup_map formed.idsOnce firstMember secondMember (own.trans alsoOwn.symm)
      · rename_i different
        exact absurd same.symm (unusedNamespace second secondMember different)
    · rename_i different
      split at same
      · exact absurd same (unusedNamespace first firstMember different)
      · exact List.inj_on_of_nodup_map formed.namespacesOnce firstMember secondMember same
  · intro conn member
    rcases List.mem_map.mp member with ⟨old, present, rfl⟩
    rw [columns.id_update]
    exact formed.issued old present

/-- A store with the same records and tokens of the same connections. -/
theorem WellFormed.congr (formed : WellFormed store) (connections : after.connections = store.connections)
    (next : after.nextConnectionId = store.nextConnectionId) (tokens : after.tokens = store.tokens) :
    WellFormed after := by
  refine ⟨?_, ?_, ?_, ?_⟩
  · exact connections ▸ formed.idsOnce
  · exact connections ▸ formed.namespacesOnce
  · rw [connections, next]
    exact formed.issued
  · rw [tokens, next]
    exact formed.tokensIssued

theorem WellFormed.withUsers (formed : WellFormed store) (users : String -> Option User) :
    WellFormed { store with users := users } :=
  formed.congr rfl rfl rfl

theorem WellFormed.createToken (formed : WellFormed store) {body : TokenIn}
    (done : App.createToken services answers body store = .ok after) : WellFormed after := by
  unfold App.createToken at done
  split at done
  · cases done
  · rename_i conn found
    rcases Store.createApiToken_eq_some (orFail_eq_ok.mp done) with ⟨_, row, target, rfl⟩
    rcases Store.getConnection_eq_some found with ⟨present, named⟩
    refine ⟨formed.idsOnce, formed.namespacesOnce, formed.issued, ?_⟩
    intro other member
    rcases List.mem_append.mp member with old | new
    · exact formed.tokensIssued other old
    · rw [List.mem_singleton.mp new, target, ← named]
      exact formed.issued conn present

theorem WellFormed.revokeApiToken (formed : WellFormed store) (tokenId : Nat) :
    WellFormed (store.revokeApiToken tokenId) := by
  refine ⟨formed.idsOnce, formed.namespacesOnce, formed.issued, ?_⟩
  intro row member
  rcases List.mem_map.mp member with ⟨old, present, rfl⟩
  have kept : (if old.id = tokenId then { old with revoked := true } else old).connectionId =
      old.connectionId := by
    split <;> rfl
  rw [kept]
  exact formed.tokensIssued old present

theorem WellFormed.deleteConnection (formed : WellFormed store) (id : Int) :
    WellFormed (store.deleteConnection id) := by
  have sublist : (store.deleteConnection id).connections.Sublist store.connections := List.filter_sublist
  exact ⟨formed.idsOnce.sublist (sublist.map _), formed.namespacesOnce.sublist (sublist.map _),
    fun conn member => formed.issued conn (sublist.subset member), formed.tokensIssued⟩

/-- Every endpoint keeps the constraints, whoever calls it. -/
theorem WellFormed.perform (formed : WellFormed store) {call : Call}
    (done : App.perform services answers store call = .ok after) : WellFormed after := by
  cases call with
  | read reading =>
      cases done
      exact formed
  | createConnection body =>
      rcases bind_eq_ok.mp done with ⟨columns, _, inserted⟩
      exact formed.insertConnection (orFail_eq_ok.mp inserted)
  | updateConnection id body =>
      rcases updateConnection_eq_ok done with ⟨columns, stored⟩
      exact formed.updateConnection stored
  | deleteConnection id =>
      cases done
      exact formed.deleteConnection id
  | wipeConnection id =>
      rcases wipeConnection_eq_ok.mp done with ⟨conn, _, rfl⟩
      exact formed.congr rfl rfl rfl
  | setSelection id items =>
      cases Store.setSelection_eq_some (orFail_eq_ok.mp done)
      exact formed.congr rfl rfl rfl
  | writeSettings values =>
      have written : App.writeSettings values store = after := Except.ok.inj done
      have kept := written.symm.trans (writeSettings_eq _ values.entries)
      subst kept
      exact formed.congr rfl rfl rfl
  | createToken body => exact formed.createToken done
  | revokeToken tokenId =>
      cases done
      exact formed.revokeApiToken tokenId
  | upsertUser body =>
      cases done
      exact formed.withUsers _
  | deleteUser email =>
      cases done
      exact formed.withUsers _
  | launchRun body =>
      rw [launchRun_eq_ok done]
      exact formed.congr rfl rfl rfl

/-- Serving any request at all keeps the constraints. -/
theorem WellFormed.serve (formed : WellFormed store) (call : Call) :
    WellFormed (App.serve services config answers request call store) := by
  unfold App.serve
  split
  · exact formed
  · split
    · exact formed
    · rename_i handled
      exact formed.perform (handle_eq_ok.mp handled).2

theorem WellFormed.step (formed : WellFormed store) {event : Event}
    (taken : TokenScope.step services config c store event = some after) : WellFormed after := by
  cases event with
  | work runId work =>
      simp only [TokenScope.step] at taken
      split at taken
      · cases work with
        | writeTable name dropped added =>
            simp only [carryOut] at taken
            split at taken
            · cases taken
            · split at taken
              · cases taken
                exact formed.congr rfl rfl rfl
              · cases taken
        | setWatermark tableFqn row =>
            cases taken
            exact formed.congr rfl rfl rfl
        | putChunk record =>
            cases taken
            exact formed.congr rfl rfl rfl
      · cases taken
  | request request call answers =>
      simp only [TokenScope.step] at taken
      split at taken
      · split at taken
        · cases taken
          exact formed.serve call
        · cases taken
      · cases taken

/-- Through a run of requests with tokens of `c`, and of the jobs these launch, what
belongs to others stays as it was exactly if every request stays within. -/
theorem others_unchanged_iff (services : Services) (config : AuthConfig) (c : Int) (store last : Store)
    (events : List Event) (formed : WellFormed store)
    (reached : run (step services config c) store events = some last) :
    Throughout (step services config c) (fun state => others c state = others c store) store events ↔
      Along (step services config c) (StaysWithin services c) store events := by
  have one_step : forall state event next, WellFormed state -> others c state = others c store ->
      step services config c state event = some next ->
      (others c next = others c store ↔ StaysWithin services c state event) := by
    intro state event next formed same taken
    rw [← same]
    exact others_step_iff formed taken
  exact throughout_iff_along (fun state event next formed taken => WellFormed.step formed taken) one_step
    formed rfl reached

def sampleConnection (id : Int) (name : String) : Connection :=
  { id := id, name := name, enabled := true, sourceDsn := "postgresql://u:p@h:5432/" ++ name
    awsAccessKey := some "key", awsSecretKey := some "secret", awsRegion := "us-east-1"
    lakeBucket := name ++ "-lake", icebergNamespace := name, syncInclude := "", syncExclude := ""
    syncObjectTypes := "TABLE,VIEW,MATERIALIZED_VIEW"
    syncSchemaBlacklist := "pg_catalog,information_schema,pg_toast" }

/-- Connections 1 and 2, and an admin token of connection 1. -/
def sampleStore : Store :=
  { connections := [sampleConnection 1 "sales", sampleConnection 2 "billing"], nextConnectionId := 3
    selection := [], watermarks := [], chunkState := []
    tokens := [{ id := 1, name := "etl", email := "etl@sales", connectionId := 1, role := "admin"
                 tokenHash := "sha256:vmt_one", tokenPrefix := "vmt_one", revoked := false }]
    nextTokenId := 2, users := fun _ => none, settings := fun _ => none
    catalog := [{ namespaceName := "billing", name := "public__invoices"
                  files := [("billing-lake", "curated/invoices/1.parquet")] }]
    objects := [{ bucket := "billing-lake", key := "curated/invoices/1.parquet", content := "rows" }]
    runs := [], nextRunId := 1 }

theorem sampleStore_wellFormed : WellFormed sampleStore :=
  ⟨by decide, by decide, by decide, by decide⟩

def sampleAnswers : Answers :=
  { dsnPassword := fun _ => "p", testDb := fun _ => none, ensureBucket := fun _ _ _ _ => none
    undeletedObjects := [], undeletedRuns := [], secret := "two", launchError := none }

def noLogin : AuthConfig :=
  { gatewayJwksUrl := "", gatewayJwtIssuer := "", gatewayJwtAudience := "viamedia-gateway"
    azureClientId := none, azureTenantId := none, sessionSecret := none }

def withToken : Request :=
  { bearer := some "vmt_one", sessionCookie := none }

/-- The token selects a table, launches its sync and sees it through. -/
def ownRequests : List Event :=
  [.request withToken (.setSelection 1 [{ schema := "public", name := "orders", kind := "TABLE", enabled := true }])
      sampleAnswers,
    .request withToken (.launchRun { connectionId := 1, tableFqn := "public.orders", mode := .incremental })
      sampleAnswers,
    .work 1 (.writeTable "public__orders" []
      [{ bucket := "sales-lake", key := "curated/orders/1.parquet", content := "rows" }])]

theorem own_requests_stay_within : Exists fun last : Store =>
    run (step forgedServices noLogin 1) sampleStore ownRequests = some last ∧
      Throughout (step forgedServices noLogin 1) (fun state => others 1 state = others 1 sampleStore)
        sampleStore ownRequests := by
  have finished : (run (step forgedServices noLogin 1) sampleStore ownRequests).isSome = true := by decide
  rcases Option.isSome_iff_exists.mp finished with ⟨last, reached⟩
  have within : Along (step forgedServices noLogin 1) (StaysWithin forgedServices 1) sampleStore ownRequests :=
    ⟨fun _ _ _ reached => reached, fun _ _ => ⟨fun _ _ _ reached => reached, fun _ _ =>
      ⟨trivial, fun _ _ => trivial⟩⟩⟩
  exact ⟨last, reached, (others_unchanged_iff forgedServices noLogin 1 sampleStore last ownRequests
    sampleStore_wellFormed reached).mpr within⟩

/-- The same token mints itself an admin token of connection 2. -/
def foreignToken : List Event :=
  [.request withToken (.createToken { name := "x", email := "x@sales", connectionId := 2, role := "admin" })
    sampleAnswers]

theorem token_for_other_connection : WellFormed sampleStore ∧ Exists fun last : Store =>
    run (step forgedServices noLogin 1) sampleStore foreignToken = some last ∧
      others 1 last ≠ others 1 sampleStore := by
  have minted : (run (step forgedServices noLogin 1) sampleStore foreignToken).map
      (fun last => (others 1 last).tokens.map ApiToken.role) = some ["admin"] := by decide
  rcases Option.map_eq_some_iff.mp minted with ⟨last, reached, roles⟩
  refine ⟨sampleStore_wellFormed, last, reached, fun same => ?_⟩
  rw [same] at roles
  exact absurd roles (by decide)

end TokenScope
end WarehouseSync

import WarehouseSync.Gateway.TokenScope
import Mathlib.Data.List.Induction

namespace WarehouseSync
namespace TokenLife

open App Auth Checks ConfigStore

/-!
# The life of an API token (`common/config_store.py`, `gateway/app.py`)

The text of a token is shown once, in the answer to the request that creates it;
the database keeps its hash.  From then on whoever sends the text is who the row
says, until an accepted request revokes the row.  Nothing else ends it: the
tokens of a connection outlive it.
-/

/-- A request with what the outside answers while it is handled. -/
structure Visit where
  request : Request
  call : Call
  answers : Answers

/-- What an accepted request has done to the tokens.  The token itself is on record
here, while the store has only its hash. -/
inductive Entry where
  | created (token : String) (row : ApiToken)
  | revoked (tokenId : Nat)

/-- The rows after one thing more has happened. -/
def Entry.apply (rows : List ApiToken) : Entry -> List ApiToken
  | .created _ row => rows ++ [row]
  | .revoked tokenId => rows.map (fun row => if row.id = tokenId then { row with revoked := true } else row)

/-- The row a `createToken` inserts. -/
def newRow (services : Services) (store : Store) (body : TokenIn) (token : String) : ApiToken :=
  { id := store.nextTokenId, name := body.name, email := body.email, connectionId := body.connectionId
    role := Store.storedRole body.role, tokenHash := services.hash token
    tokenPrefix := String.ofList (token.toList.take 12), revoked := false }

section Requests

variable (services : Services) (config : AuthConfig)

/-- What a request that is accepted does to the tokens.  All but two kinds of
request do nothing to them. -/
def entryOf (store : Store) (answers : Answers) : Call -> Option Entry
  | .createToken body => some (.created ("vmt_" ++ answers.secret)
      (newRow services store body ("vmt_" ++ answers.secret)))
  | .revokeToken tokenId => some (.revoked tokenId)
  | _ => none

def entry (store : Store) (visit : Visit) : Option Entry :=
  match currentPrincipal services config store.tokens visit.request with
  | .error _ => none
  | .ok principal =>
      match handle services visit.answers principal visit.call store with
      | .error _ => none
      | .ok _ => entryOf services store visit.answers visit.call

def serveVisit (store : Store) (visit : Visit) : Store :=
  serve services config visit.answers visit.request visit.call store

def serveAll : Store -> List Visit -> Store
  | store, [] => store
  | store, visit :: visits => serveAll (serveVisit services config store visit) visits

/-- What has happened to the tokens, in order.  It is computed along with the
requests, because whether one is accepted depends on the tokens of that moment. -/
def log : Store -> List Visit -> List Entry
  | _, [] => []
  | store, visit :: visits =>
      (entry services config store visit).toList ++ log (serveVisit services config store visit) visits

end Requests

/-- The token was created, and not revoked since.  It is a statement about the log,
which knows neither hashes nor rows. -/
def Live (entries : List Entry) (token : String) (row : ApiToken) : Prop :=
  Exists fun before : List Entry => Exists fun after : List Entry =>
    entries = before ++ .created token row :: after ∧ Entry.revoked row.id ∉ after

theorem Live.concat {entries : List Entry} {token : String} {row : ApiToken} (live : Live entries token row)
    {last : Entry} (other : last ≠ .revoked row.id) : Live (entries ++ [last]) token row := by
  rcases live with ⟨before, after, rfl, kept⟩
  refine ⟨before, after ++ [last], by simp, ?_⟩
  intro member
  rcases List.mem_append.mp member with earlier | new
  · exact kept earlier
  · exact other (List.mem_singleton.mp new).symm

theorem live_concat_iff {entries : List Entry} {token : String} {row : ApiToken} {last : Entry} :
    Live (entries ++ [last]) token row ↔
      last = .created token row ∨ (Live entries token row ∧ last ≠ .revoked row.id) := by
  constructor
  · rintro ⟨before, after, split, kept⟩
    induction after using List.reverseRecOn with
    | nil => exact Or.inl (List.head_eq_of_cons_eq (List.append_inj' split rfl).2)
    | append_singleton after final _ =>
        have regrouped : entries ++ [last] = (before ++ .created token row :: after) ++ [final] := by
          rw [split]
          simp
        rcases List.append_inj' regrouped rfl with ⟨same, ends⟩
        rw [List.head_eq_of_cons_eq ends]
        refine Or.inr ⟨⟨before, after, same, fun member => kept (List.mem_append_left _ member)⟩, ?_⟩
        intro revokes
        exact kept (List.mem_append_right _ (List.mem_singleton.mpr revokes.symm))
  · rintro (rfl | ⟨live, other⟩)
    · exact ⟨entries, [], rfl, List.not_mem_nil⟩
    · exact live.concat other

/-- A revocation takes exactly the rows with its id out of use. -/
theorem mem_apply_revoked {rows : List ApiToken} {tokenId : Nat} {row : ApiToken} :
    (row ∈ (Entry.revoked tokenId).apply rows ∧ row.revoked = false) ↔
      (row ∈ rows ∧ row.revoked = false) ∧ row.id ≠ tokenId := by
  constructor
  · rintro ⟨member, unrevoked⟩
    rcases List.mem_map.mp member with ⟨old, listed, rfl⟩
    by_cases here : old.id = tokenId
    · rw [if_pos here] at unrevoked
      cases unrevoked
    · rw [if_neg here] at unrevoked ⊢
      exact ⟨⟨listed, unrevoked⟩, here⟩
  · rintro ⟨⟨listed, unrevoked⟩, other⟩
    exact ⟨List.mem_map.mpr ⟨row, listed, if_neg other⟩, unrevoked⟩

theorem Live.mem {entries : List Entry} {token : String} {row : ApiToken} (live : Live entries token row) :
    Entry.created token row ∈ entries := by
  rcases live with ⟨before, after, rfl, _⟩
  exact List.mem_append_right _ List.mem_cons_self

/-- The rows in use are those of the tokens that live. -/
theorem mem_rows_iff {entries : List Entry}
    (fresh : forall token row, Entry.created token row ∈ entries -> row.revoked = false) (row : ApiToken) :
    (row ∈ entries.foldl Entry.apply [] ∧ row.revoked = false) ↔
      Exists fun token : String => Live entries token row := by
  induction entries using List.reverseRecOn with
  | nil =>
      refine iff_of_false (fun both => List.not_mem_nil both.1) ?_
      rintro ⟨token, before, after, split, _⟩
      simp at split
  | append_singleton entries last ih =>
      have known := ih (fun token row member => fresh token row (List.mem_append_left _ member))
      rw [List.foldl_append, List.foldl_cons, List.foldl_nil]
      simp only [live_concat_iff]
      cases last with
      | revoked tokenId =>
          rw [mem_apply_revoked, known]
          constructor
          · rintro ⟨⟨token, live⟩, other⟩
            exact ⟨token, Or.inr ⟨live, fun same => other (Entry.revoked.inj same).symm⟩⟩
          · rintro ⟨token, impossible | ⟨live, other⟩⟩
            · cases impossible
            · exact ⟨⟨token, live⟩, fun same => other (congrArg Entry.revoked same.symm)⟩
      | created token new =>
          have unrevoked := fresh token new (List.mem_append_right _ List.mem_cons_self)
          constructor
          · rintro ⟨member, inUse⟩
            rcases List.mem_append.mp member with old | added
            · rcases known.mp ⟨old, inUse⟩ with ⟨earlier, live⟩
              exact ⟨earlier, Or.inr ⟨live, fun impossible => by cases impossible⟩⟩
            · rw [List.mem_singleton.mp added]
              exact ⟨token, Or.inl rfl⟩
          · rintro ⟨given, same | ⟨live, _⟩⟩
            · cases same
              exact ⟨List.mem_append_right _ List.mem_cons_self, unrevoked⟩
            · have old := known.mpr ⟨given, live⟩
              exact ⟨List.mem_append_left _ old.1, old.2⟩

/-! ## What a request does -/

variable {services : Services} {config : AuthConfig} {answers : Answers} {store after : Store}

theorem createApiToken_eq_some {body : TokenIn} {secret : String}
    (created : store.createApiToken services.hash body.name body.email body.connectionId body.role secret =
      some after) :
    after.tokens = store.tokens ++ [newRow services store body ("vmt_" ++ secret)] ∧
      forall row, row ∈ store.tokens -> row.tokenHash ≠ services.hash ("vmt_" ++ secret) := by
  simp only [Store.createApiToken] at created
  split at created
  · cases created
  · rename_i unused
    cases created
    refine ⟨rfl, fun row member same => unused ?_⟩
    exact List.any_eq_true.mpr ⟨row, member, beq_iff_eq.mpr same⟩

theorem createToken_eq_ok {body : TokenIn} (done : createToken services answers body store = .ok after) :
    store.createApiToken services.hash body.name body.email body.connectionId body.role answers.secret =
      some after := by
  unfold createToken at done
  split at done
  · cases done
  · exact orFail_eq_ok.mp done

/-- Only the two endpoints of the tokens change them. -/
theorem tokens_perform {call : Call} (done : perform services answers store call = .ok after) :
    after.tokens = (entryOf services store answers call).toList.foldl Entry.apply store.tokens := by
  cases call with
  | createToken body => exact (createApiToken_eq_some (createToken_eq_ok done)).1
  | read reading =>
      cases done
      rfl
  | createConnection body =>
      rcases bind_eq_ok.mp done with ⟨columns, _, inserted⟩
      have stored := orFail_eq_ok.mp inserted
      unfold Store.insertConnection at stored
      split at stored
      · cases stored
        rfl
      · cases stored
  | updateConnection connectionId body =>
      rcases updateConnection_eq_ok done with ⟨columns, stored⟩
      unfold Store.updateConnection at stored
      split at stored
      · cases stored
        rfl
      · cases stored
  | wipeConnection connectionId =>
      rcases wipeConnection_eq_ok.mp done with ⟨conn, _, rfl⟩
      rfl
  | setSelection connectionId items =>
      cases Store.setSelection_eq_some (orFail_eq_ok.mp done)
      rfl
  | writeSettings values =>
      have written : writeSettings values store = after := Except.ok.inj done
      rw [← written, writeSettings, TokenScope.writeSettings_eq]
      rfl
  | launchRun body =>
      rw [launchRun_eq_ok done]
      rfl
  | upsertUser body =>
      have stored : store.upsertUser body.email body.role body.enabled = after := Except.ok.inj done
      subst stored
      unfold Store.upsertUser
      rfl
  | deleteUser email =>
      have stored : store.deleteUser email = after := Except.ok.inj done
      subst stored
      unfold Store.deleteUser
      rfl
  | deleteConnection _ | revokeToken _ =>
      cases done
      rfl

theorem tokens_serveVisit (store : Store) (visit : Visit) :
    (serveVisit services config store visit).tokens =
      (entry services config store visit).toList.foldl Entry.apply store.tokens := by
  unfold serveVisit serve entry
  cases currentPrincipal services config store.tokens visit.request with
  | error rejection => rfl
  | ok principal =>
      cases handled : handle services visit.answers principal visit.call store with
      | error rejection =>
          simp only [handled]
          rfl
      | ok after =>
          simp only [handled]
          exact tokens_perform (handle_eq_ok.mp handled).2

theorem tokens_serveAll (store : Store) (visits : List Visit) :
    (serveAll services config store visits).tokens =
      (log services config store visits).foldl Entry.apply store.tokens := by
  induction visits generalizing store with
  | nil => rfl
  | cons visit visits ih =>
      unfold serveAll log
      rw [ih, tokens_serveVisit, List.foldl_append]

/-- A row as it is inserted. -/
theorem created_of_entry {visit : Visit} {token : String} {row : ApiToken}
    (created : entry services config store visit = some (.created token row)) :
    token ≠ "" ∧ row.tokenHash = services.hash token ∧ row.revoked = false ∧
      forall other, other ∈ store.tokens -> other.tokenHash ≠ row.tokenHash := by
  unfold entry at created
  split at created
  · cases created
  · split at created
    · cases created
    · rename_i handled
      cases call : visit.call with
      | createToken body =>
          rw [call] at created handled
          have inserted := createToken_eq_ok (handle_eq_ok.mp handled).2
          cases created
          refine ⟨?_, rfl, rfl, (createApiToken_eq_some inserted).2⟩
          intro empty
          have letters := congrArg String.toList empty
          simp at letters
      | _ =>
          rw [call] at created
          cases created

theorem created_of_log {visits : List Visit} {token : String} {row : ApiToken}
    (created : Entry.created token row ∈ log services config store visits) :
    token ≠ "" ∧ row.tokenHash = services.hash token ∧ row.revoked = false := by
  induction visits generalizing store with
  | nil => exact absurd created List.not_mem_nil
  | cons visit visits ih =>
      rcases List.mem_append.mp created with first | later
      · have facts := created_of_entry (Option.mem_toList.mp first)
        exact ⟨facts.1, facts.2.1, facts.2.2.1⟩
      · exact ih later

def HashedOnce (rows : List ApiToken) : Prop :=
  (rows.map ApiToken.tokenHash).Nodup

theorem HashedOnce.serveVisit (once : HashedOnce store.tokens) (visit : Visit) :
    HashedOnce (serveVisit services config store visit).tokens := by
  rw [tokens_serveVisit]
  cases happened : entry services config store visit with
  | none => exact once
  | some entry =>
      cases entry with
      | created token row =>
          have fresh := (created_of_entry happened).2.2.2
          change ((store.tokens ++ [row]).map ApiToken.tokenHash).Nodup
          rw [List.map_append, List.map_singleton]
          refine List.Nodup.append once (List.nodup_singleton _) ?_
          intro hash old new
          rcases List.mem_map.mp old with ⟨other, member, rfl⟩
          exact fresh other member (List.mem_singleton.mp new)
      | revoked tokenId =>
          have sameHashes : ((Entry.revoked tokenId).apply store.tokens).map ApiToken.tokenHash =
              store.tokens.map ApiToken.tokenHash := by
            unfold Entry.apply
            rw [List.map_map]
            refine List.map_congr_left (fun row _ => ?_)
            simp only [Function.comp_apply]
            split
            · rfl
            · rfl
          unfold HashedOnce at once
          rw [← sameHashes] at once
          exact once

theorem HashedOnce.serveAll (once : HashedOnce store.tokens) (visits : List Visit) :
    HashedOnce (serveAll services config store visits).tokens := by
  induction visits generalizing store with
  | nil => exact once
  | cons visit visits ih => exact ih (once.serveVisit visit)

theorem verifyApiToken_of_mem {rows : List ApiToken} (once : HashedOnce rows) {token : String} (nonempty : token ≠ "")
    {row : ApiToken} (member : row ∈ rows) (unrevoked : row.revoked = false)
    (hashed : row.tokenHash = services.hash token) : verifyApiToken services rows token = some row := by
  cases found : verifyApiToken services rows token with
  | none =>
      rcases verifyApiToken_eq_none.mp found with empty | unused
      · exact absurd empty nonempty
      · exact absurd (unused row member hashed) (by rw [unrevoked]; exact Bool.false_ne_true)
  | some other =>
      rcases verifyApiToken_eq_some found with ⟨listed, _, sameHash⟩
      exact congrArg some (List.inj_on_of_nodup_map once listed member (sameHash.trans hashed.symm))

/-- Whatever requests were served, a request is taken for one with an API token
exactly if its bearer text is a token that an accepted request has created and none
has revoked since; and then it acts as the row says that was created. -/
theorem token_life (services : Services) (config : AuthConfig) (start : Store) (visits : List Visit)
    (request : Request) (row : ApiToken) (unissued : start.tokens = [])
    (noCollision : forall bearer token created, request.bearer = some bearer ->
      Entry.created token created ∈ log services config start visits ->
        services.hash token = services.hash bearer -> token = bearer) :
    requestToken services (serveAll services config start visits).tokens request = some row ↔
      Exists fun token : String => request.bearer = some token ∧
        Live (log services config start visits) token row := by
  have rows : (serveAll services config start visits).tokens =
      (log services config start visits).foldl Entry.apply start.tokens := tokens_serveAll start visits
  have inUse : (row ∈ (log services config start visits).foldl Entry.apply [] ∧ row.revoked = false) ↔
      Exists fun token : String => Live (log services config start visits) token row :=
    mem_rows_iff (fun token created member => (created_of_log member).2.2) row
  rw [unissued] at rows
  rw [← rows] at inUse
  constructor
  · intro found
    rcases Option.bind_eq_some_iff.mp found with ⟨bearer, sent, verified⟩
    rcases verifyApiToken_eq_some verified with ⟨member, unrevoked, hashed⟩
    rcases inUse.mp ⟨member, unrevoked⟩ with ⟨token, live⟩
    have same := noCollision bearer token row sent live.mem ((created_of_log live.mem).2.1.symm.trans hashed)
    exact ⟨bearer, sent, same ▸ live⟩
  · rintro ⟨token, sent, live⟩
    have present := inUse.mpr ⟨token, live⟩
    have facts := created_of_log live.mem
    have once : HashedOnce start.tokens := by
      rw [unissued]
      exact List.nodup_nil
    exact Option.bind_eq_some_iff.mpr ⟨token, sent,
      verifyApiToken_of_mem (once.serveAll visits) facts.1 present.1 present.2 facts.2.1⟩

/-- A login that nothing is configured for: everyone is an admin. -/
def openGateway : AuthConfig :=
  { gatewayJwksUrl := "", gatewayJwtIssuer := "", gatewayJwtAudience := "", azureClientId := none
    azureTenantId := none, sessionSecret := none }

def plainServices : Services where
  jose :=
    { unverifiedClaims := fun _ => .error "Not enough segments",
      unverifiedKid := fun _ => .error "Not enough segments"
      decode := fun _ _ _ _ => .error "Not enough segments", Signed := fun _ _ _ => False
      sound := fun _ _ _ _ _ decoded => by cases decoded }
  hash := fun token => "sha256:" ++ token
  fetchJwks := fun _ => none

def outside : Answers :=
  { dsnPassword := fun _ => "", testDb := fun _ => none, ensureBucket := fun _ _ _ _ => none, undeletedObjects := []
    undeletedRuns := [], secret := "s3cret", launchError := none }

def oneConnection : Store :=
  { connections := [{ id := 1, name := "sales", enabled := true, sourceDsn := "", awsAccessKey := none
                      awsSecretKey := none, awsRegion := "us-east-1",
                      lakeBucket := "lake", icebergNamespace := "sales"
                      syncInclude := "", syncExclude := "", syncObjectTypes := "TABLE", syncSchemaBlacklist := "" }]
    nextConnectionId := 2, selection := [], watermarks := [], chunkState := [], tokens := [], nextTokenId := 1
    users := fun _ => none, settings := fun _ => none, catalog := [], objects := [], runs := [], nextRunId := 1 }

def anonymously (call : Call) : Visit :=
  { request := { bearer := none, sessionCookie := none }, call := call, answers := outside }

def createdThenConnectionDeleted : List Visit :=
  [anonymously (.createToken { name := "etl", email := "etl@sales", connectionId := 1, role := "viewer" }),
    anonymously (.deleteConnection 1)]

theorem token_outlives_connection : Exists fun row : ApiToken =>
    row.connectionId = 1 ∧
      requestToken plainServices
        (serveAll plainServices openGateway oneConnection createdThenConnectionDeleted).tokens
        { bearer := some "vmt_s3cret", sessionCookie := none } = some row := by
  refine ⟨_, rfl, (token_life plainServices openGateway oneConnection createdThenConnectionDeleted _ _ rfl ?_).mpr
    ⟨"vmt_s3cret", rfl, [], [], rfl, List.not_mem_nil⟩⟩
  intro bearer token created sent member _
  cases sent
  rcases List.mem_singleton.mp member with ⟨⟩
  rfl

end TokenLife
end WarehouseSync

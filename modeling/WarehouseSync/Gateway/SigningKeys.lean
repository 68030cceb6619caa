import WarehouseSync.Gateway.Auth
import WarehouseSync.Library.EditLogs
import WarehouseSync.Library.Memo
import WarehouseSync.Library.Transition

namespace WarehouseSync
namespace SigningKeys

open Auth EditLogs Transition

/-!
# Which keys a JWT is verified with (`gateway/auth.py`)

The identity provider publishes its keys behind a URL and may replace them at
any time.  `_fetch_jwks` keeps a document for five minutes, under the time from
before it was fetched.  Requests are served by many threads, so other requests
and other publications come between any two steps of a call.
-/

/-- A call of `verify_jwt` with the settings it began with, and when it looked at
the cache.  The settings are read once, so a call that began without a URL goes on
without one, whatever is configured in the meantime. -/
inductive Call where
  | unchecked (config : AuthConfig)
  | fetching (config : AuthConfig) (started : Int)
  | storing (config : AuthConfig) (started : Int) (keys : List Jwk)
  | holding (config : AuthConfig) (started : Int) (keys : List Jwk)
  | failed
deriving DecidableEq, Repr

/-- The published documents with their history, and the cache of a process.  Times
are in nanoseconds. -/
structure State where
  now : Int
  initial : String -> Option (List Jwk)
  published : List (Edit Int String (List Jwk))
  jwksCache : String -> Option (Int × List Jwk)
  calls : Nat -> Option Call

def State.fresh (initial : String -> Option (List Jwk)) (now : Int) : State :=
  { now := now, initial := initial, published := [], jwksCache := fun _ => none, calls := fun _ => none }

def State.setCall (state : State) (call : Nat) (status : Call) : State :=
  { state with calls := Function.update state.calls call (some status) }

def State.keep (state : State) (url : String) (started : Int) (keys : List Jwk) : State :=
  { state with jwksCache := Function.update state.jwksCache url (some (started, keys)) }

/-- `_JWKS_TTL`. -/
def jwksTtl : Int := 300000000000

/-- The document behind a URL. -/
def State.document (state : State) (url : String) : Option (List Jwk) :=
  after state.initial state.published url

inductive Event where
  | tick (later : Int)
  | publish (url : String) (keys : List Jwk)
  | begin (call : Nat) (config : AuthConfig)
  | fetch (call : Nat)
  | fail (call : Nat)
  | store (call : Nat)
deriving DecidableEq, Repr

/-- One step.  A call may fetch while others are served from the cache, and the
later of two fetches is not always the one that is kept. -/
def step (state : State) : Event -> Option State
  | .tick later => if state.now ≤ later then some { state with now := later } else none
  | .publish url keys => some { state with published := state.published ++ [⟨state.now, url, keys⟩] }
  | .begin call config =>
      match state.calls call with
      | some _ => none
      | none =>
          if config.gatewayJwksUrl = "" then some (state.setCall call (.unchecked config))
          else
            match state.jwksCache config.gatewayJwksUrl with
            | some (stamp, keys) =>
                if state.now - stamp < jwksTtl then some (state.setCall call (.holding config state.now keys))
                else some (state.setCall call (.fetching config state.now))
            | none => some (state.setCall call (.fetching config state.now))
  | .fetch call =>
      match state.calls call with
      | some (.fetching config started) =>
          (state.document config.gatewayJwksUrl).map (fun keys =>
            state.setCall call (.storing config started keys))
      | _ => none
  | .fail call =>
      match state.calls call with
      | some (.fetching _ _) => some (state.setCall call .failed)
      | _ => none
  | .store call =>
      match state.calls call with
      | some (.storing config started keys) =>
          some ((state.keep config.gatewayJwksUrl started keys).setCall call (.holding config started keys))
      | _ => none

/-- What the rest of `verify_jwt` says about a token, once there are keys or none
are asked for.  The model of a single verification is used as it is, on the keys
that the call has in hand. -/
def State.verdict (state : State) (services : Services) (call : Nat) (token : String) :
    Option (Except Rejection Principal) :=
  match state.calls call with
  | some (.holding config _ keys) =>
      some (verifyJwt { services with fetchJwks := fun _ => some keys } config token)
  | some (.unchecked config) => some (verifyJwt services config token)
  | _ => none

/-- The keys were the document behind the URL when they were fetched, at the time or
later.  The time is that of the stamp, which is taken before the fetch. -/
def State.Fetched (state : State) (url : String) (since : Int) (keys : List Jwk) : Prop :=
  since ≤ state.now ∧ ReadSince state.initial state.published since url (fun document => document = some keys)

/-- What a call has in hand is recent: keys from the cache are younger than the time
they are kept for, and fetched ones younger than the call. -/
def State.Knows (state : State) : Call -> Prop
  | .unchecked config => config.gatewayJwksUrl = ""
  | .fetching config started => config.gatewayJwksUrl ≠ "" ∧ started ≤ state.now
  | .storing config started keys => config.gatewayJwksUrl ≠ "" ∧ state.Fetched config.gatewayJwksUrl started keys
  | .holding config started keys => config.gatewayJwksUrl ≠ "" ∧
      Exists fun stamp : Int => started - jwksTtl < stamp ∧ state.Fetched config.gatewayJwksUrl stamp keys
  | .failed => True

/-- The invariant of the cache: every entry was the document at some instant since
its stamp. -/
structure Consistent (state : State) : Prop where
  ordered : InOrder state.published
  made : forall edit, edit ∈ state.published -> edit.time ≤ state.now
  cache : forall url stamp keys, state.jwksCache url = some (stamp, keys) -> state.Fetched url stamp keys
  calls : forall call status, state.calls call = some status -> state.Knows status

/-! ## What a step does -/

/-- Everything a step can do, with its guards.  A call that begins has three cases,
of which only one asks the provider. -/
inductive Effect (state : State) : Event -> State -> Prop
  | tick {later : Int} (forward : state.now ≤ later) : Effect state (.tick later) { state with now := later }
  | publish {url : String} {keys : List Jwk} :
      Effect state (.publish url keys) { state with published := state.published ++ [⟨state.now, url, keys⟩] }
  | unset {call : Nat} {config : AuthConfig} (missing : config.gatewayJwksUrl = "") :
      Effect state (.begin call config) (state.setCall call (.unchecked config))
  | served {call : Nat} {config : AuthConfig} {stamp : Int} {keys : List Jwk}
      (configured : config.gatewayJwksUrl ≠ "")
      (kept : state.jwksCache config.gatewayJwksUrl = some (stamp, keys)) (valid : state.now - stamp < jwksTtl) :
      Effect state (.begin call config) (state.setCall call (.holding config state.now keys))
  | began {call : Nat} {config : AuthConfig} (configured : config.gatewayJwksUrl ≠ "") :
      Effect state (.begin call config) (state.setCall call (.fetching config state.now))
  | fetch {call : Nat} {config : AuthConfig} {started : Int} {keys : List Jwk}
      (fetching : state.calls call = some (.fetching config started))
      (answered : state.document config.gatewayJwksUrl = some keys) :
      Effect state (.fetch call) (state.setCall call (.storing config started keys))
  | fail {call : Nat} : Effect state (.fail call) (state.setCall call .failed)
  | store {call : Nat} {config : AuthConfig} {started : Int} {keys : List Jwk}
      (storing : state.calls call = some (.storing config started keys)) :
      Effect state (.store call)
        ((state.keep config.gatewayJwksUrl started keys).setCall call (.holding config started keys))

variable {state next : State} {event : Event}

theorem effect_of_step (taken : step state event = some next) : Effect state event next := by
  cases event with
  | tick later =>
      simp only [step] at taken
      split at taken
      · rename_i forward
        cases taken
        exact Effect.tick forward
      · cases taken
  | publish url keys =>
      cases taken
      exact Effect.publish
  | begin call config =>
      simp only [step] at taken
      split at taken
      · cases taken
      · split at taken
        · rename_i missing
          cases taken
          exact Effect.unset missing
        · rename_i configured
          split at taken
          · rename_i stamp keys kept
            split at taken
            · rename_i valid
              cases taken
              exact Effect.served configured kept valid
            · cases taken
              exact Effect.began configured
          · cases taken
            exact Effect.began configured
  | fetch call =>
      simp only [step] at taken
      split at taken
      · rename_i config started fetching
        rcases Option.map_eq_some_iff.mp taken with ⟨keys, answered, rfl⟩
        exact Effect.fetch fetching answered
      · cases taken
  | fail call =>
      simp only [step] at taken
      split at taken
      · cases taken
        exact Effect.fail
      · cases taken
  | store call =>
      simp only [step] at taken
      split at taken
      · rename_i config started keys storing
        cases taken
        exact Effect.store storing
      · cases taken

/-- What was fetched stays fetched. -/
theorem State.Fetched.preserved {url : String} {since : Int} {keys : List Jwk}
    (fetched : state.Fetched url since keys) (taken : step state event = some next) :
    next.Fetched url since keys := by
  cases effect_of_step taken with
  | tick forward => exact ⟨le_trans fetched.1 forward, fetched.2⟩
  | publish => exact ⟨fetched.1, fetched.2.concat fetched.1⟩
  | _ => exact fetched

theorem State.Knows.preserved {status : Call} (known : state.Knows status) (taken : step state event = some next) :
    next.Knows status := by
  have forward : state.now ≤ next.now := by
    cases effect_of_step taken with
    | tick forward => exact forward
    | _ => exact le_refl _
  cases status with
  | unchecked config => exact known
  | fetching config started => exact ⟨known.1, le_trans known.2 forward⟩
  | storing config started keys => exact ⟨known.1, known.2.preserved taken⟩
  | holding config started keys =>
      rcases known with ⟨configured, stamp, young, fetched⟩
      exact ⟨configured, stamp, young, fetched.preserved taken⟩
  | failed => trivial

theorem consistent_fresh (initial : String -> Option (List Jwk)) (now : Int) :
    Consistent (State.fresh initial now) where
  ordered := List.Pairwise.nil
  made := fun _ none => by cases none
  cache := fun _ _ _ none => by cases none
  calls := fun _ _ none => by cases none

/-- Every call but the one that takes the step knows what it knew. -/
theorem Consistent.calls_setCall (consistent : Consistent state) (taken : step state event = some next) {call : Nat}
    {status : Call} (own : next.Knows status)
    (updated : next.calls = Function.update state.calls call (some status)) :
    forall other found, next.calls other = some found -> next.Knows found := by
  intro other found held
  rw [updated] at held
  rcases Memo.update_eq_some held with before | ⟨_, rfl⟩
  · exact (consistent.calls other found before).preserved taken
  · exact own

theorem Consistent.preserved (consistent : Consistent state) (taken : step state event = some next) :
    Consistent next := by
  have cache (url : String) (stamp : Int) (keys : List Jwk) (kept : state.jwksCache url = some (stamp, keys)) :
      next.Fetched url stamp keys := (consistent.cache url stamp keys kept).preserved taken
  have calls (call : Nat) (status : Call) (held : state.calls call = some status) : next.Knows status :=
    (consistent.calls call status held).preserved taken
  cases effect_of_step taken with
  | tick forward =>
      exact ⟨consistent.ordered, fun edit member => le_trans (consistent.made edit member) forward, cache, calls⟩
  | publish =>
      refine ⟨inOrder_concat consistent.ordered consistent.made, ?_, cache, calls⟩
      intro edit member
      rcases List.mem_append.mp member with before | last
      · exact consistent.made edit before
      · rw [List.mem_singleton.mp last]
  | @unset call config missing =>
      have own : (state.setCall call (.unchecked config)).Knows (.unchecked config) := missing
      exact ⟨consistent.ordered, consistent.made, cache, consistent.calls_setCall taken own rfl⟩
  | @served call config stamp keys configured kept valid =>
      have own : (state.setCall call (.holding config state.now keys)).Knows (.holding config state.now keys) :=
        ⟨configured, stamp, by omega, consistent.cache _ _ _ kept⟩
      exact ⟨consistent.ordered, consistent.made, cache, consistent.calls_setCall taken own rfl⟩
  | @began call config configured =>
      have own : (state.setCall call (.fetching config state.now)).Knows (.fetching config state.now) :=
        ⟨configured, le_refl _⟩
      exact ⟨consistent.ordered, consistent.made, cache, consistent.calls_setCall taken own rfl⟩
  | @fetch call config started keys fetching answered =>
      have known := consistent.calls call _ fetching
      have own : (state.setCall call (.storing config started keys)).Knows (.storing config started keys) :=
        ⟨known.1, known.2, readSince_now answered⟩
      exact ⟨consistent.ordered, consistent.made, cache, consistent.calls_setCall taken own rfl⟩
  | @fail call =>
      have own : (state.setCall call .failed).Knows .failed := trivial
      exact ⟨consistent.ordered, consistent.made, cache, consistent.calls_setCall taken own rfl⟩
  | @store call config started keys storing =>
      have known := consistent.calls call _ storing
      have own : ((state.keep config.gatewayJwksUrl started keys).setCall call
          (.holding config started keys)).Knows (.holding config started keys) :=
        ⟨known.1, started, Int.sub_lt_self started (by decide), known.2⟩
      refine ⟨consistent.ordered, consistent.made, ?_, consistent.calls_setCall taken own rfl⟩
      intro url stamp found kept
      rcases Memo.update_eq_some kept with before | ⟨rfl, same⟩
      · exact consistent.cache url stamp found before
      · cases same
        exact known.2

theorem consistent_of_run {initial : String -> Option (List Jwk)} {now : Int} {events : List Event}
    (reached : run step (State.fresh initial now) events = some state) : Consistent state :=
  run_invariant_always (fun _ _ _ holds taken => Consistent.preserved holds taken) (consistent_fresh initial now)
    reached

/-- The principal is the one of a token that a key signed which was published at
some instant after the five minutes before the call began. -/
def RecentlySigned (services : Services) (state : State) (call : Nat) (token : String) (principal : Principal) :
    Prop :=
  Exists fun config : AuthConfig => Exists fun started : Int => Exists fun keys : List Jwk =>
    state.calls call = some (.holding config started keys) ∧
      Exists fun key : Jwk => Exists fun claims : Claims => Exists fun sub : String =>
        services.jose.Signed token (.jwk key) claims ∧ claims.sub = some sub ∧ principal = jwtPrincipal sub claims ∧
          HeldSince state.initial state.published (started - jwksTtl) state.now config.gatewayJwksUrl
            (fun document => Exists fun published : List Jwk => document = some published ∧ key ∈ published)

/-- The call began without a URL, and the principal is what the token says of
itself.  This is the development mode, which is in force whenever no URL is
configured. -/
def Unchecked (services : Services) (state : State) (call : Nat) (token : String) (principal : Principal) : Prop :=
  Exists fun config : AuthConfig => Exists fun claims : Claims =>
    state.calls call = some (.unchecked config) ∧ config.gatewayJwksUrl = "" ∧
      services.jose.unverifiedClaims token = .ok claims ∧
        principal = jwtPrincipal (claims.sub.getD "dev") claims

/-- However calls and publications interleave, a token is believed only if a recent
key signed it, or no URL was configured when the call began. -/
theorem signed_by_recent_key (services : Services) (initial : String -> Option (List Jwk)) (now : Int)
    (events : List Event) (state : State) (call : Nat) (token : String) (principal : Principal)
    (reached : run step (State.fresh initial now) events = some state)
    (believed : state.verdict services call token = some (.ok principal)) :
    RecentlySigned services state call token principal ∨ Unchecked services state call token principal := by
  have consistent := consistent_of_run reached
  unfold State.verdict at believed
  split at believed
  · rename_i config started keys holding
    have verified := Option.some.inj believed
    rcases consistent.calls call _ holding with ⟨configured, stamp, young, past, read⟩
    have justified := @verifyJwt_justified { services with fetchJwks := fun _ => some keys } config []
      { bearer := some token, sessionCookie := none } token principal rfl configured verified
    rcases justified with ⟨_, row, _, none, _⟩ | ⟨cookie, _, _, _, none, _⟩ |
      ⟨bearer, found, key, claims, sub, sent, _, fetched, member, signed, carried, same⟩
    · cases none
    · cases none
    · cases sent
      cases fetched
      refine Or.inl ⟨config, started, keys, holding, key, claims, sub, signed, carried, same, ?_⟩
      apply ReadSince.heldSince consistent.ordered consistent.made _ young past
      rcases read with ⟨seen, unseen, split, recent, document⟩
      exact ⟨seen, unseen, split, recent, keys, document, member⟩
  · rename_i config unchecked
    have unset : config.gatewayJwksUrl = "" := consistent.calls call _ unchecked
    have verified := Option.some.inj believed
    rw [verifyJwt, if_pos unset] at verified
    split at verified
    · cases verified
    · rename_i claims decoded
      exact Or.inr ⟨config, claims, unchecked, unset, decoded, (Except.ok.inj verified).symm⟩
  · cases believed

def adaClaims : Claims :=
  { sub := some "ada", email := none, role := none, roles := some ["admin"] }

def firstKey : Jwk :=
  { kid := some "first", alg := some "RS256", material := "n1" }

def secondKey : Jwk :=
  { kid := some "second", alg := some "RS256", material := "n2" }

/-- The first key has signed one token. -/
def oneToken : Jose where
  unverifiedClaims := fun _ => .ok adaClaims
  unverifiedKid := fun _ => .ok (some "first")
  decode := fun token key _ _ => if token = "jwt" ∧ key = .jwk firstKey then .ok adaClaims else .error "bad signature"
  Signed := fun token key claims => token = "jwt" ∧ key = .jwk firstKey ∧ claims = adaClaims
  sound := by
    intro token key algorithms audienceAndIssuer claims decoded
    split at decoded
    · rename_i signed
      cases decoded
      exact ⟨signed.1, signed.2, rfl⟩
    · cases decoded

def provider : Services :=
  { jose := oneToken, hash := id, fetchJwks := fun _ => none }

def withJwks : AuthConfig :=
  { gatewayJwksUrl := "https://idp/keys", gatewayJwtIssuer := "idp", gatewayJwtAudience := "gateway"
    azureClientId := none, azureTenantId := none, sessionSecret := none }

/-- A call fetches the keys; a minute later the first is replaced, and a minute
after that another call begins. -/
def rotation : List Event :=
  [.begin 1 withJwks, .fetch 1, .store 1, .tick 60000000000, .publish "https://idp/keys" [secondKey],
    .tick 120000000000, .begin 2 withJwks]

theorem withdrawn_key_believed : Exists fun state : State =>
    run step (State.fresh (fun _ => some [firstKey]) 0) rotation = some state ∧
      state.document "https://idp/keys" = some [secondKey] ∧
      RecentlySigned provider state 2 "jwt" (jwtPrincipal "ada" adaClaims) := by
  have finished : (run step (State.fresh (fun _ => some [firstKey]) 0) rotation).isSome = true := rfl
  have reached := (Option.some_get finished).symm
  rcases signed_by_recent_key provider _ 0 rotation _ 2 "jwt" (jwtPrincipal "ada" adaClaims) reached rfl with
    signed | ⟨config, claims, unchecked, _⟩
  · exact ⟨_, reached, rfl, signed⟩
  · cases (unchecked : some (Call.holding withJwks 120000000000 [firstKey]) = _)

end SigningKeys
end WarehouseSync

import Mathlib.Data.List.Basic

namespace WarehouseSync
namespace Auth

/-!
# Who a request is from (`gateway/auth.py`, `gateway/oauth.py`)

Four sources of identity are tried in order: an API token, the session cookie of
the Microsoft login, a JWT of a configured issuer, and anonymous access when
nothing is configured.  The JOSE library is a parameter that comes with the one
law relied on: what it decodes with a key is signed by that key.

A JWT is verified when a JWKS URL is configured, but it is read at all as soon
as an issuer is.  With an issuer and no URL, whatever the bearer claims to be is
believed.
-/

/-- The claims of a JWT that are looked at.  Sessions and tokens of an issuer share
the type, and each reads only some of the fields. -/
structure Claims where
  sub : Option String
  email : Option String
  role : Option String
  roles : Option (List String)
deriving DecidableEq, Repr

structure Jwk where
  kid : Option String
  alg : Option String
  material : String
deriving DecidableEq, Repr

inductive Key where
  | secret (secret : String)
  | jwk (key : Jwk)
deriving DecidableEq, Repr

/-- The library `jose`.  An error is the message of a `JWTError`.  All that is
assumed of it is `sound`: claims that it has verified were signed with the key. -/
structure Jose where
  unverifiedClaims : String -> Except String Claims
  unverifiedKid : String -> Except String (Option String)
  decode : String -> Key -> List String -> Option (String × String) -> Except String Claims
  /-- The signature of the token verifies under the key, and covers the claims. -/
  Signed : String -> Key -> Claims -> Prop
  sound : forall token key algorithms audienceAndIssuer claims,
    decode token key algorithms audienceAndIssuer = .ok claims -> Signed token key claims

/-- Everything outside the gateway that authentication asks: the library, the hash
of API tokens, and the document behind a JWKS URL. -/
structure Services where
  jose : Jose
  hash : String -> String
  fetchJwks : String -> Option (List Jwk)

/-- The settings that authentication reads.  Any of them may be missing, and which
ones are decides how a request is authenticated. -/
structure AuthConfig where
  gatewayJwksUrl : String
  gatewayJwtIssuer : String
  gatewayJwtAudience : String
  azureClientId : Option String
  azureTenantId : Option String
  sessionSecret : Option String
deriving DecidableEq, Repr

/-- A row of `pipeline_api_tokens`.  The token itself is not in it, only its hash
and its first characters. -/
structure ApiToken where
  id : Nat
  name : String
  email : String
  connectionId : Int
  role : String
  tokenHash : String
  tokenPrefix : String
  revoked : Bool
deriving DecidableEq, Repr

structure Request where
  bearer : Option String
  sessionCookie : Option String
deriving DecidableEq, Repr

/-- Where a principal was taken from, with the data it carries along. -/
inductive Raw where
  | tokenId (id : Nat)
  | session
  | claims (claims : Claims)
  | nothing
deriving DecidableEq, Repr

/-- Who a request is from and what it may do.  Only the principal of an API token is
bound to a connection. -/
structure Principal where
  sub : String
  roles : List String
  email : String
  connectionId : Option Int
  raw : Raw
deriving DecidableEq, Repr

def Principal.isAdmin (principal : Principal) : Bool :=
  principal.roles.contains "admin"

/-- A rejected request: an HTTP error, or an exception nothing handles.  The client
sees the second as a status of 500. -/
inductive Rejection where
  | http (status : Nat) (detail : String)
  | unhandled (exception : String)
deriving DecidableEq, Repr

def tokenPrincipal (row : ApiToken) : Principal :=
  { sub := "token:" ++ toString row.id, roles := [row.role], email := row.email
    connectionId := some row.connectionId, raw := .tokenId row.id }

/-- `verify_api_token`; marking the token as used is left out.  The row is found by
the hash of the whole token, and a revoked one is as good as none. -/
def verifyApiToken (services : Services) (tokens : List ApiToken) (token : String) : Option ApiToken :=
  if token = "" then none
  else tokens.find? (fun row => decide (row.tokenHash = services.hash token) && !row.revoked)

def jwtPrincipal (sub : String) (claims : Claims) : Principal :=
  { sub := sub, roles := claims.roles.getD [], email := "", connectionId := none
    raw := .claims claims }

def sessionPrincipalOf (email : String) (claims : Claims) : Principal :=
  { sub := email, roles := [claims.role.getD "viewer"], email := email, connectionId := none
    raw := .session }

def isSet (value : Option String) : Bool :=
  match value with
  | some text => text != ""
  | none => false

def AuthConfig.microsoftLoginEnabled (config : AuthConfig) : Bool :=
  isSet config.azureClientId && isSet config.azureTenantId

/-- `auth_on`: some way to authenticate is configured.  Without any, a request that
carries neither an API token nor a session is the anonymous administrator. -/
def AuthConfig.authOn (config : AuthConfig) : Bool :=
  config.gatewayJwksUrl != "" || config.gatewayJwtIssuer != "" || config.microsoftLoginEnabled

/-- The principal of the session cookie, if the login is configured.  A cookie that
does not verify counts as none, so the request may still be let in by its bearer
text. -/
def sessionPrincipal (services : Services) (config : AuthConfig) (request : Request) :
    Except Rejection (Option Principal) :=
  if config.microsoftLoginEnabled = false then .ok none
  else
    match request.sessionCookie with
    | none | some "" => .ok none
    | some cookie =>
        match config.sessionSecret with
        | none | some "" => .error (.http 500 "SESSION_SECRET is not configured")
        | some secret =>
            match services.jose.decode cookie (.secret secret) ["HS256"] none with
            | .error _ => .ok none
            | .ok claims =>
                match claims.email with
                | none => .error (.unhandled "KeyError: 'email'")
                | some email => .ok (some (sessionPrincipalOf email claims))

/-- The principal of a JWT.  Without a JWKS URL the claims are believed as they are,
which is meant for development but depends on nothing else. -/
def verifyJwt (services : Services) (config : AuthConfig) (token : String) :
    Except Rejection Principal :=
  if config.gatewayJwksUrl = "" then
    match services.jose.unverifiedClaims token with
    | .error _ => .error (.http 401 "invalid token")
    | .ok claims => .ok (jwtPrincipal (claims.sub.getD "dev") claims)
  else
    match services.fetchJwks config.gatewayJwksUrl with
    | none => .error (.unhandled "httpx.HTTPError")
    | some keys =>
        match services.jose.unverifiedKid token with
        | .error message => .error (.http 401 ("invalid token: " ++ message))
        | .ok kid =>
            match keys.find? (fun key => decide (key.kid = kid)) with
            | none => .error (.http 401 "no matching JWK")
            | some key =>
                match services.jose.decode token (.jwk key) [key.alg.getD "RS256"]
                    (some (config.gatewayJwtAudience, config.gatewayJwtIssuer)) with
                | .error message => .error (.http 401 ("invalid token: " ++ message))
                | .ok claims =>
                    match claims.sub with
                    | none => .error (.unhandled "KeyError: 'sub'")
                    | some sub => .ok (jwtPrincipal sub claims)

/-- The principal of open mode, who may do everything. -/
def anonymous : Principal :=
  { sub := "anonymous", roles := ["admin"], email := "", connectionId := none, raw := .nothing }

/-- The JWT of a configured issuer, and open mode; tried after the API token and the
session cookie.  A bearer text that is no API token is a JWT as soon as an issuer is
configured. -/
def bearerPrincipal (services : Services) (config : AuthConfig) (request : Request) :
    Except Rejection Principal :=
  match request.bearer with
  | some bearer =>
      if config.gatewayJwksUrl ≠ "" ∨ config.gatewayJwtIssuer ≠ "" then verifyJwt services config bearer
      else if config.authOn = true then .error (.http 401 "authentication required")
      else .ok anonymous
  | none =>
      if config.authOn = true then .error (.http 401 "authentication required") else .ok anonymous

/-- The row of the API token a request carries. -/
def requestToken (services : Services) (tokens : List ApiToken) (request : Request) : Option ApiToken :=
  request.bearer.bind (verifyApiToken services tokens)

/-- The three ways in, one after the other.  The first that applies decides, and
only an error that is raised keeps the next one from being tried. -/
def currentPrincipal (services : Services) (config : AuthConfig) (tokens : List ApiToken)
    (request : Request) : Except Rejection Principal :=
  match requestToken services tokens request with
  | some row => .ok (tokenPrincipal row)
  | none =>
      match sessionPrincipal services config request with
      | .error rejection => .error rejection
      | .ok (some principal) => .ok principal
      | .ok none => bearerPrincipal services config request

def requireAdmin (principal : Principal) : Except Rejection Unit :=
  if principal.isAdmin = true then .ok () else .error (.http 403 "admin role required")

/-- A principal without a connection may act on all of them: it is only the API
tokens that are scoped. -/
def enforceConnectionScope (principal : Principal) (connectionId : Int) : Except Rejection Unit :=
  match principal.connectionId with
  | none => .ok ()
  | some own =>
      if own = connectionId then .ok ()
      else .error (.http 403 ("this token is scoped to connection " ++ toString own))

/-! ## Soundness -/

/-- The principal is what an unrevoked token row, a session cookie signed with the
session secret, or a JWT signed with a key of the configured JWKS says.  It speaks
of signatures and rows only, and not of how the code looks them up. -/
def Justified (services : Services) (config : AuthConfig) (tokens : List ApiToken) (request : Request)
    (principal : Principal) : Prop :=
  (Exists fun bearer : String => Exists fun row : ApiToken =>
    request.bearer = some bearer ∧ row ∈ tokens ∧ row.revoked = false ∧
      row.tokenHash = services.hash bearer ∧ principal = tokenPrincipal row) ∨
  (Exists fun cookie : String => Exists fun secret : String => Exists fun claims : Claims =>
    Exists fun email : String =>
      request.sessionCookie = some cookie ∧ config.sessionSecret = some secret ∧
        services.jose.Signed cookie (.secret secret) claims ∧ claims.email = some email ∧
        principal = sessionPrincipalOf email claims) ∨
  (Exists fun bearer : String => Exists fun keys : List Jwk => Exists fun key : Jwk =>
    Exists fun claims : Claims => Exists fun sub : String =>
      request.bearer = some bearer ∧ config.gatewayJwksUrl ≠ "" ∧
        services.fetchJwks config.gatewayJwksUrl = some keys ∧ key ∈ keys ∧
        services.jose.Signed bearer (.jwk key) claims ∧ claims.sub = some sub ∧
        principal = jwtPrincipal sub claims)

/-- No session is found: the login is off, there is no cookie, or the cookie does
not verify.  Errors are not among these, because they end the request. -/
def NoSession (services : Services) (config : AuthConfig) (request : Request) : Prop :=
  config.microsoftLoginEnabled = false ∨ isSet request.sessionCookie = false ∨
    Exists fun cookie : String => Exists fun secret : String => Exists fun message : String =>
      request.sessionCookie = some cookie ∧ config.sessionSecret = some secret ∧ secret ≠ "" ∧
        services.jose.decode cookie (.secret secret) ["HS256"] none = .error message

/-- An issuer is configured without a JWKS URL, and the request carries nothing but
a bearer text that parses as a JWT.  It is a condition on the configuration and the
request. -/
def Bypass (services : Services) (config : AuthConfig) (tokens : List ApiToken) (request : Request) :
    Prop :=
  config.gatewayJwksUrl = "" ∧ config.gatewayJwtIssuer ≠ "" ∧ NoSession services config request ∧
    Exists fun bearer : String => Exists fun claims : Claims =>
      request.bearer = some bearer ∧
        (bearer = "" ∨ forall row, row ∈ tokens -> row.tokenHash = services.hash bearer ->
          row.revoked = true) ∧
        services.jose.unverifiedClaims bearer = .ok claims

variable {services : Services} {config : AuthConfig} {tokens : List ApiToken} {request : Request}

theorem verifyApiToken_eq_some {token : String} {row : ApiToken}
    (found : verifyApiToken services tokens token = some row) :
    row ∈ tokens ∧ row.revoked = false ∧ row.tokenHash = services.hash token := by
  unfold verifyApiToken at found
  by_cases empty : token = ""
  · rw [if_pos empty] at found
    cases found
  · rw [if_neg empty] at found
    have matched := List.find?_some found
    simp only [Bool.and_eq_true, decide_eq_true_eq, Bool.not_eq_true'] at matched
    exact ⟨List.mem_of_find?_eq_some found, matched.2, matched.1⟩

theorem verifyApiToken_eq_none {token : String} :
    verifyApiToken services tokens token = none ↔
      token = "" ∨ forall row, row ∈ tokens -> row.tokenHash = services.hash token ->
        row.revoked = true := by
  unfold verifyApiToken
  by_cases empty : token = ""
  · simp [empty]
  · simp [empty, List.find?_eq_none]

theorem sessionPrincipal_eq_none :
    sessionPrincipal services config request = .ok none ↔ NoSession services config request := by
  unfold sessionPrincipal NoSession
  by_cases off : config.microsoftLoginEnabled = false
  · simp [off]
  · rw [if_neg off]
    simp only [off]
    split
    · simp_all [isSet]
    · simp_all [isSet]
    · rename_i cookie nonempty given
      have present : isSet (some cookie) = true := by simpa [isSet] using nonempty
      rw [given, present]
      split
      · simp_all
      · simp_all
      · rename_i secret nonemptySecret configured
        rw [configured]
        cases decoded : services.jose.decode cookie (.secret secret) ["HS256"] none with
        | error message => simp_all
        | ok claims =>
            cases email : claims.email with
            | none => simp_all
            | some email => simp_all

theorem sessionPrincipal_eq_some {principal : Principal}
    (found : sessionPrincipal services config request = .ok (some principal)) :
    Justified services config tokens request principal := by
  unfold sessionPrincipal at found
  split at found
  · cases found
  · split at found
    · cases found
    · cases found
    · rename_i cookie _ given
      split at found
      · cases found
      · cases found
      · rename_i secret _ configured
        split at found
        · cases found
        · rename_i claims decoded
          split at found
          · cases found
          · rename_i email carried
            cases found
            exact Or.inr (Or.inl ⟨cookie, secret, claims, email, given, configured,
              services.jose.sound _ _ _ _ _ decoded, carried, rfl⟩)

/-- With a JWKS URL a JWT is believed only if a key of the JWKS signed it. -/
theorem verifyJwt_justified {bearer : String} {principal : Principal}
    (given : request.bearer = some bearer) (url : config.gatewayJwksUrl ≠ "")
    (verified : verifyJwt services config bearer = .ok principal) :
    Justified services config tokens request principal := by
  unfold verifyJwt at verified
  rw [if_neg url] at verified
  split at verified
  · cases verified
  · rename_i keys fetched
    split at verified
    · cases verified
    · rename_i kid _
      split at verified
      · cases verified
      · rename_i key found
        split at verified
        · cases verified
        · rename_i claims decoded
          split at verified
          · cases verified
          · rename_i sub carried
            cases verified
            exact Or.inr (Or.inr ⟨bearer, keys, key, claims, sub, given, url, fetched,
              List.mem_of_find?_eq_some found, services.jose.sound _ _ _ _ _ decoded, carried, rfl⟩)

/-- What a JWT says justifies nothing when no JWKS is configured. -/
theorem not_justified_jwtPrincipal {sub : String} {claims : Claims}
    (url : config.gatewayJwksUrl = "") :
    ¬ Justified services config tokens request (jwtPrincipal sub claims) := by
  rintro (⟨_, row, _, _, _, _, same⟩ | ⟨_, _, _, _, _, _, _, _, same⟩ |
    ⟨_, _, _, _, _, _, configured, _⟩)
  · exact absurd (congrArg Principal.raw same) (by simp [jwtPrincipal, tokenPrincipal])
  · exact absurd (congrArg Principal.raw same) (by simp [jwtPrincipal, sessionPrincipalOf])
  · exact configured url

/-- A bearer that is no API token is trusted on a verified JWT only, unless the
request bypasses the verification. -/
theorem bearerPrincipal_justified (on : config.authOn = true)
    (token : requestToken services tokens request = none) (noSession : NoSession services config request)
    (closed : ¬ Bypass services config tokens request) {principal : Principal}
    (accepted : bearerPrincipal services config request = .ok principal) :
    Justified services config tokens request principal := by
  unfold bearerPrincipal at accepted
  simp only [on, if_true] at accepted
  cases given : request.bearer with
  | none =>
      rw [given] at accepted
      cases accepted
  | some bearer =>
      rw [given] at accepted
      by_cases url : config.gatewayJwksUrl = ""
      · by_cases issuer : config.gatewayJwtIssuer = ""
        · simp only [url, issuer, ne_eq, not_true_eq_false, or_self, if_false] at accepted
          cases accepted
        · -- An issuer without a URL: the bearer must not parse.
          simp only [if_pos (Or.inr issuer), verifyJwt, if_pos url] at accepted
          rw [requestToken, given, Option.bind_some] at token
          cases parsed : services.jose.unverifiedClaims bearer with
          | error message =>
              rw [parsed] at accepted
              cases accepted
          | ok claims =>
              exact absurd ⟨url, issuer, noSession, bearer, claims, given, verifyApiToken_eq_none.mp token,
                parsed⟩ closed
      · simp only [if_pos (Or.inl url)] at accepted
        exact verifyJwt_justified given url accepted

/-- With authentication on, every principal handed out is justified exactly if the
request does not get through on an unverified JWT. -/
theorem currentPrincipal_justified_iff (services : Services) (config : AuthConfig)
    (tokens : List ApiToken) (request : Request) (on : config.authOn = true) :
    (forall principal, currentPrincipal services config tokens request = .ok principal ->
      Justified services config tokens request principal) ↔
      ¬ Bypass services config tokens request := by
  constructor
  · rintro sound ⟨url, issuer, noSession, bearer, claims, given, unknown, parsed⟩
    have noToken : requestToken services tokens request = none := by
      rw [requestToken, given, Option.bind_some]
      exact verifyApiToken_eq_none.mpr unknown
    have accepted : currentPrincipal services config tokens request =
        .ok (jwtPrincipal (claims.sub.getD "dev") claims) := by
      rw [currentPrincipal, noToken]
      simp only [sessionPrincipal_eq_none.mpr noSession, bearerPrincipal, given]
      rw [if_pos (Or.inr issuer), verifyJwt, if_pos url, parsed]
    exact not_justified_jwtPrincipal url (sound _ accepted)
  · intro closed principal accepted
    unfold currentPrincipal at accepted
    cases token : requestToken services tokens request with
    | some row =>
        rw [token] at accepted
        cases accepted
        rcases Option.bind_eq_some_iff.mp token with ⟨bearer, given, found⟩
        rcases verifyApiToken_eq_some found with ⟨member, unrevoked, hashed⟩
        exact Or.inl ⟨bearer, row, given, member, unrevoked, hashed, rfl⟩
    | none =>
        rw [token] at accepted
        cases session : sessionPrincipal services config request with
        | error rejection =>
            rw [session] at accepted
            cases accepted
        | ok found =>
            cases found with
            | some principal =>
                rw [session] at accepted
                cases accepted
                exact sessionPrincipal_eq_some session
            | none =>
                rw [session] at accepted
                exact bearerPrincipal_justified on token (sessionPrincipal_eq_none.mp session) closed accepted

def attacker : Claims :=
  { sub := some "mallory", email := none, role := none, roles := some ["admin"] }

/-- The library on one forged token, whose signature verifies under no key. -/
def forgedJose : Jose :=
  { unverifiedClaims := fun token =>
      if token = "forged" then .ok attacker else .error "Error decoding token headers."
    unverifiedKid := fun token =>
      if token = "forged" then .ok (some "key") else .error "Error decoding token headers."
    decode := fun _ _ _ _ => .error "Signature verification failed."
    Signed := fun _ _ _ => False
    sound := fun _ _ _ _ _ decoded => by cases decoded }

def forgedServices : Services :=
  { jose := forgedJose
    hash := fun token => "sha256:" ++ token
    fetchJwks := fun _ => some [{ kid := some "key", alg := some "RS256", material := "n" }] }

def issuerOnly : AuthConfig :=
  { gatewayJwksUrl := "", gatewayJwtIssuer := "https://issuer", gatewayJwtAudience := "viamedia-gateway"
    azureClientId := none, azureTenantId := none, sessionSecret := none }

def forgedRequest : Request :=
  { bearer := some "forged", sessionCookie := none }

/-- With the URL configured as well the forged token gets nowhere. -/
theorem forged_token_rejected_by_jwks (principal : Principal) :
    currentPrincipal forgedServices { issuerOnly with gatewayJwksUrl := "https://issuer/jwks" } []
      forgedRequest ≠ .ok principal := by
  have rejected : currentPrincipal forgedServices
      { issuerOnly with gatewayJwksUrl := "https://issuer/jwks" } [] forgedRequest =
        .error (.http 401 "invalid token: Signature verification failed.") := rfl
  rw [rejected]
  exact fun same => by cases same

theorem forged_token_sound_with_jwks :
    ¬ Bypass forgedServices { issuerOnly with gatewayJwksUrl := "https://issuer/jwks" } []
      forgedRequest := by
  refine (currentPrincipal_justified_iff forgedServices
    { issuerOnly with gatewayJwksUrl := "https://issuer/jwks" } [] forgedRequest rfl).mp ?_
  intro principal accepted
  exact absurd accepted (forged_token_rejected_by_jwks principal)

/-- With only the issuer configured the forged token is an admin. -/
theorem forged_token_is_admin :
    issuerOnly.authOn = true ∧
      Exists fun principal : Principal =>
        currentPrincipal forgedServices issuerOnly [] forgedRequest = .ok principal ∧
          principal.isAdmin = true ∧
          ¬ Justified forgedServices issuerOnly [] forgedRequest principal :=
  ⟨rfl, jwtPrincipal "mallory" attacker, rfl, rfl, not_justified_jwtPrincipal rfl⟩

end Auth
end WarehouseSync

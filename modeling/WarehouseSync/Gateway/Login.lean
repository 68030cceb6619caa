import WarehouseSync.Gateway.App
import WarehouseSync.Library.Fields
import WarehouseSync.Library.Transition

namespace WarehouseSync
namespace Login

open App Auth ConfigStore DecimalText Fields Transition

/-!
# The Microsoft login (`gateway/oauth.py`)

`/auth/login` leaves a random state in a cookie of the browser and sends it to
Microsoft, which sends it back to `/auth/callback` with a code.  The callback
compares the state with the cookie, exchanges the code for the claims of the
account, looks the email up among the users and leaves a signed session cookie.
From then on nothing is looked up any more: the session says what the user may
do until it expires.

Whoever makes pages can send a browser to any URL of the gateway.  A page does
not know the states that other browsers were given; that is what keeps it from
logging them in as somebody else.
-/

structure Session where
  email : String
  role : String
  exp : Int
deriving DecidableEq, Repr

/-- HS256 of the library.  Verifying does not look at the time.  That a text which
verifies was signed with the secret is not assumed, but follows where it is needed
from what was handed out. -/
structure Signer where
  encode : Session -> String -> String
  verify : String -> String -> Option Session
  verify_encode : forall session secret, verify (encode session secret) secret = some session

/-- What `jwt.decode` with the secret gives at this instant.  The expiry is checked
here and nowhere else in the gateway. -/
def decodeSession (signer : Signer) (now : Int) (token secret : String) : Except String Claims :=
  match signer.verify token secret with
  | none => .error "Signature verification failed."
  | some session =>
      if session.exp < now then .error "Signature has expired."
      else .ok { sub := none, email := some session.email, role := some session.role, roles := none }

/-- The library at this instant.  Sessions are verified by the signer and the clock,
everything else by the library as it was. -/
def joseAt (jose : Jose) (signer : Signer) (now : Int) : Jose where
  unverifiedClaims := jose.unverifiedClaims
  unverifiedKid := jose.unverifiedKid
  decode := fun token key algorithms audienceAndIssuer =>
    match key with
    | .secret secret => decodeSession signer now token secret
    | .jwk jwk => jose.decode token (.jwk jwk) algorithms audienceAndIssuer
  Signed := fun token key claims =>
    match key with
    | .secret secret => decodeSession signer now token secret = .ok claims
    | .jwk jwk => jose.Signed token (.jwk jwk) claims
  sound := by
    intro token key algorithms audienceAndIssuer claims decoded
    cases key with
    | secret secret => exact decoded
    | jwk jwk => exact jose.sound token (.jwk jwk) algorithms audienceAndIssuer claims decoded

def servicesAt (services : Services) (signer : Signer) (now : Int) : Services :=
  { services with jose := joseAt services.jose signer now }

/-- `_SESSION_TTL`. -/
def sessionTtl : Int :=
  8 * 3600

/-- The environment of the login.  It is fixed for a run, while the users are stored
and change. -/
structure Deployment where
  config : AuthConfig
  authBootstrapAdmins : String

/-- The claims of an id token that may name the account. -/
structure IdClaims where
  email : Option String
  preferredUsername : Option String
  upn : Option String
deriving DecidableEq, Repr

/-- What the token endpoint answers to a code.  It is the only source of an email
that the login believes. -/
inductive Exchange where
  | refused
  | noIdToken
  | idToken (claims : IdClaims)
deriving DecidableEq, Repr

/-- The first claim that is set, in lower case. -/
def IdClaims.address (claims : IdClaims) : String :=
  PythonText.lower ((([claims.email, claims.preferredUsername, claims.upn].find? isSet).getD none).getD "")

/-- `get_user`: the role of an enabled user.  A user who is disabled is as good as
none here, so a bootstrap admin cannot be shut out by disabling. -/
def getUser (store : Store) (email : String) : Option String :=
  (store.users (Store.normalEmail email)).bind (fun user => if user.enabled = true then some user.role else none)

/-- The emails of `AUTH_BOOTSTRAP_ADMINS`. -/
def Deployment.bootstrapAdmins (deployment : Deployment) : List String :=
  ((deployment.authBootstrapAdmins.toList.splitOn ',').map (fun part =>
    Store.normalEmail (String.ofList part))).filter (fun email => email != "")

/-- The role that a login with this email gets now.  A stored user comes before the
list of the environment. -/
def admits (deployment : Deployment) (store : Store) (email : String) : Option String :=
  match getUser store email with
  | some role => some role
  | none => if deployment.bootstrapAdmins.contains email = true then some "admin" else none

/-- A bootstrap admin without an enabled row gets one, so a row that was disabled is
enabled again. -/
def persistBootstrap (deployment : Deployment) (store : Store) (email : String) : Store :=
  match getUser store email with
  | some _ => store
  | none =>
      if deployment.bootstrapAdmins.contains email = true then store.upsertUser email "admin" true else store

def newSession (signer : Signer) (deployment : Deployment) (now : Int) (email role : String) :
    Except Rejection String :=
  match deployment.config.sessionSecret with
  | none | some "" => .error (.http 500 "SESSION_SECRET is not configured")
  | some secret => .ok (signer.encode { email := email, role := role, exp := now + sessionTtl } secret)

/-- The check of code and state.  It binds the callback to the browser in which the
login began. -/
def stateMatches (cookie code state : Option String) : Bool :=
  isSet code && isSet state && decide (state = cookie)

/-- The second half of the callback, with the answer of the token endpoint.  The
role is looked up at this moment and written into the session, which keeps it until
it expires. -/
def finishLogin (signer : Signer) (deployment : Deployment) (now : Int) (store : Store) :
    Exchange -> Store × Except Rejection String
  | .refused => (store, .error (.http 401 "token exchange failed"))
  | .noIdToken => (store, .error (.http 401 "no id_token returned"))
  | .idToken claims =>
      let email := claims.address
      if email = "" then (store, .error (.http 401 "no email claim in token"))
      else
        match admits deployment store email with
        | none => (store, .error (.http 403
            (email ++ " is not allowed. Ask an admin to add you under the Admin tab.")))
        | some role => (persistBootstrap deployment store email, newSession signer deployment now email role)

/-- The store afterwards and the session cookie, or the error.  The code is
exchanged only when the state matches. -/
def callback (signer : Signer) (deployment : Deployment) (now : Int) (store : Store)
    (exchange : String -> Exchange) (cookie code state : Option String) : Store × Except Rejection String :=
  if deployment.config.microsoftLoginEnabled = false then
    (store, .error (.http 400 "Microsoft login is not configured"))
  else if stateMatches cookie code state = false then (store, .error (.http 400 "invalid OAuth state"))
  else finishLogin signer deployment now store (exchange (code.getD ""))

/-- The two cookies of a browser.  They are all that the gateway leaves there; the
server keeps no list of sessions. -/
structure Jar where
  oauthState : Option String
  session : Option String
deriving DecidableEq, Repr

/-- A code that the provider gave to a browser in which someone signed in, together
with what it says of the account. -/
structure Grant (β : Type) where
  browser : β
  code : String
  claims : IdClaims
deriving DecidableEq, Repr

/-- The gateway, the provider and the browsers.  States, codes and sessions that
were handed out are on record, since what can be said of a session goes back to
them. -/
structure World (β : Type) where
  now : Int
  store : Store
  jars : β -> Jar
  /-- The states that were left in cookies. -/
  issued : List (β × String)
  /-- The codes that were not exchanged yet. -/
  grants : List (Grant β)
  /-- The session cookies that were handed out. -/
  sessions : List String

/-- One step of a browser, of the provider or of the gateway.  Requests of every
other kind are steps too, because they may change the users. -/
inductive Event (β : Type) where
  | wait (now : Int)
  /-- Any other request to the gateway. -/
  | request (request : Request) (call : Call) (answers : Answers)
  | login (browser : β) (state : String)
  | signIn (grant : Grant β)
  | callback (browser : β) (code state : Option String)
  | logout (browser : β)
  /-- The state cookie expires. -/
  | forget (browser : β)

section Protocol

variable {β : Type} [DecidableEq β]

/-- The token endpoint takes a code once. -/
def World.exchange (world : World β) (code : String) : Exchange :=
  match world.grants.find? (fun grant => decide (grant.code = code)) with
  | some grant => .idToken grant.claims
  | none => .refused

def World.setJar (world : World β) (browser : β) (jar : Jar) : World β :=
  { world with jars := Function.update world.jars browser jar }

/-- The callback in this browser.  Its code is used up when it is exchanged, also
when the login is refused after that. -/
def World.callback (signer : Signer) (deployment : Deployment) (world : World β) (browser : β)
    (code state : Option String) : World β :=
  let cookie := (world.jars browser).oauthState
  let exchanged := deployment.config.microsoftLoginEnabled && stateMatches cookie code state
  let result := Login.callback signer deployment world.now world.store world.exchange cookie code state
  let left := { world with
    store := result.1
    grants := if exchanged = true then world.grants.filter (fun grant => decide (some grant.code ≠ code))
      else world.grants }
  match result.2 with
  | .error _ => left
  | .ok session => { left with
      jars := Function.update world.jars browser { oauthState := none, session := some session }
      sessions := session :: world.sessions }

/-- One step.  A browser comes to the callback with any code and state, be it from
its own login or from a page of someone else. -/
def step (services : Services) (signer : Signer) (deployment : Deployment) (world : World β) :
    Event β -> Option (World β)
  | .wait now => if world.now ≤ now then some { world with now := now } else none
  | .request request call answers => some { world with
      store := serve (servicesAt services signer world.now) deployment.config answers request call world.store }
  | .login browser state =>
      if deployment.config.microsoftLoginEnabled = true then
        some { world.setJar browser { world.jars browser with oauthState := some state } with
          issued := (browser, state) :: world.issued }
      else some world
  | .signIn grant => some { world with grants := grant :: world.grants }
  | .callback browser code state => some (world.callback signer deployment browser code state)
  | .logout browser => some (world.setJar browser { world.jars browser with session := none })
  | .forget browser => some (world.setJar browser { world.jars browser with oauthState := none })

/-- Nothing was handed out yet. -/
structure Begins (world : World β) : Prop where
  jars : forall browser, world.jars browser = { oauthState := none, session := none }
  issued : world.issued = []
  grants : world.grants = []
  sessions : world.sessions = []

/-- What is relied on.  People sign in to accounts of their own, and codes are not
stolen.  A page may send a browser to the callback with a code of its own, but it
does not know the states that the browser was given. -/
def Honest (owns : β -> IdClaims -> Prop) (world : World β) : Event β -> Prop
  | .signIn grant => owns grant.browser grant.claims
  | .callback browser code state =>
      (forall grant, grant ∈ world.grants -> code = some grant.code -> grant.browser = browser) ∨
        forall entry, entry ∈ world.issued -> entry.1 = browser -> state ≠ some entry.2
  | _ => True

instance decidableHonest (owns : β -> IdClaims -> Prop) [forall browser claims, Decidable (owns browser claims)]
    (world : World β) : forall event : Event β, Decidable (Honest owns world event)
  | .signIn grant => inferInstanceAs (Decidable (owns grant.browser grant.claims))
  | .callback browser code state => inferInstanceAs (Decidable
      ((forall grant, grant ∈ world.grants -> code = some grant.code -> grant.browser = browser) ∨
        forall entry, entry ∈ world.issued -> entry.1 = browser -> state ≠ some entry.2))
  | .wait _ => isTrue trivial
  | .request _ _ _ => isTrue trivial
  | .login _ _ => isTrue trivial
  | .logout _ => isTrue trivial
  | .forget _ => isTrue trivial

/-! ## Where a session comes from -/

variable {services : Services} {signer : Signer} {deployment : Deployment}

/-- What makes a callback hand out this session.  It is all that later steps need to
know of the callback. -/
structure HandsOut (signer : Signer) (deployment : Deployment) (world : World β) (browser : β)
    (code state : Option String) (token : String) : Prop where
  state_eq : state = (world.jars browser).oauthState
  state_set : isSet state = true
  admitted : Exists fun grant : Grant β => Exists fun role : String => Exists fun secret : String =>
    grant ∈ world.grants ∧ code = some grant.code ∧
      admits deployment world.store grant.claims.address = some role ∧
      deployment.config.sessionSecret = some secret ∧
      token = signer.encode
        { email := grant.claims.address, role := role, exp := world.now + sessionTtl } secret

omit [DecidableEq β] in
theorem isSet_iff {value : Option String} : isSet value = true ↔ Exists fun text : String =>
    value = some text ∧ text ≠ "" := by
  cases value with
  | none => simp [isSet]
  | some text => simp [isSet]

omit [DecidableEq β] in
theorem exchange_eq_idToken {world : World β} {code : String} {claims : IdClaims}
    (answered : world.exchange code = .idToken claims) :
    Exists fun grant : Grant β => grant ∈ world.grants ∧ grant.code = code ∧ grant.claims = claims := by
  unfold World.exchange at answered
  split at answered
  · rename_i grant found
    cases answered
    have same := List.find?_some found
    exact ⟨grant, List.mem_of_find?_eq_some found, of_decide_eq_true same, rfl⟩
  · cases answered

theorem finishLogin_eq_ok {now : Int} {store : Store} {answer : Exchange} {token : String}
    (ok : (finishLogin signer deployment now store answer).2 = .ok token) :
    Exists fun claims : IdClaims => Exists fun role : String => Exists fun secret : String =>
      answer = .idToken claims ∧ admits deployment store claims.address = some role ∧
        deployment.config.sessionSecret = some secret ∧
        token = signer.encode { email := claims.address, role := role, exp := now + sessionTtl } secret := by
  cases answer with
  | refused => cases ok
  | noIdToken => cases ok
  | idToken claims =>
      simp only [finishLogin] at ok
      split at ok
      · cases ok
      · split at ok
        · cases ok
        · rename_i role admitted
          simp only [newSession] at ok
          split at ok
          · cases ok
          · cases ok
          · rename_i secret _ configured
            cases ok
            exact ⟨claims, role, secret, rfl, admitted, configured, rfl⟩

omit [DecidableEq β] in
theorem callback_handsOut {world : World β} {browser : β} {code state : Option String} {token : String}
    (ok : (Login.callback signer deployment world.now world.store world.exchange (world.jars browser).oauthState
      code state).2 = .ok token) : HandsOut signer deployment world browser code state token := by
  unfold Login.callback at ok
  split at ok
  · cases ok
  · split at ok
    · cases ok
    · rename_i matched
      rw [Bool.not_eq_false, stateMatches, Bool.and_eq_true_iff, Bool.and_eq_true_iff] at matched
      rcases isSet_iff.mp matched.1.1 with ⟨text, rfl, _⟩
      rcases finishLogin_eq_ok ok with ⟨claims, role, secret, answered, admitted, configured, rfl⟩
      rcases exchange_eq_idToken answered with ⟨grant, member, same, rfl⟩
      refine ⟨of_decide_eq_true matched.2, matched.1.2, grant, role, secret, member, ?_, admitted, configured, rfl⟩
      exact congrArg some same.symm

/-- The browsers and the sessions after a callback. -/
theorem callback_cases (signer : Signer) (deployment : Deployment) (world : World β) (browser : β)
    (code state : Option String) :
    let next := world.callback signer deployment browser code state
    next.now = world.now ∧ next.issued = world.issued ∧ next.grants ⊆ world.grants ∧
      ((next.jars = world.jars ∧ next.sessions = world.sessions) ∨
        Exists fun token : String => HandsOut signer deployment world browser code state token ∧
          next.jars = Function.update world.jars browser { oauthState := none, session := some token } ∧
          next.sessions = token :: world.sessions) := by
  intro next
  have fewer : (if (deployment.config.microsoftLoginEnabled &&
      stateMatches (world.jars browser).oauthState code state) = true
      then world.grants.filter (fun grant => decide (some grant.code ≠ code)) else world.grants) ⊆
        world.grants := by
    split
    · exact fun _ member => List.mem_of_mem_filter member
    · exact List.Subset.refl _
  cases answered : (Login.callback signer deployment world.now world.store world.exchange
      (world.jars browser).oauthState code state).2 with
  | error rejection =>
      simp only [next, World.callback, answered]
      exact ⟨trivial, trivial, fewer, Or.inl ⟨trivial, trivial⟩⟩
  | ok token =>
      simp only [next, World.callback, answered]
      exact ⟨trivial, trivial, fewer, Or.inr ⟨token, callback_handsOut answered, rfl, rfl⟩⟩

/-- The session was handed out to this browser by a callback of the run.  The state
at that moment is named, as the role was looked up in it. -/
def Granted (services : Services) (signer : Signer) (deployment : Deployment) (start : World β)
    (events : List (Event β)) (browser : β) (token : String) : Prop :=
  Exists fun before => Exists fun code => Exists fun state => Exists fun after => Exists fun middle : World β =>
    events = before ++ .callback browser code state :: after ∧
      run (step services signer deployment) start before = some middle ∧
      HandsOut signer deployment middle browser code state token

variable {start : World β} {events : List (Event β)}

theorem Granted.concat {browser : β} {token : String}
    (granted : Granted services signer deployment start events browser token) (event : Event β) :
    Granted services signer deployment start (events ++ [event]) browser token := by
  rcases granted with ⟨before, code, state, after, middle, rfl, reached, handsOut⟩
  exact ⟨before, code, state, after ++ [event], middle, by rw [List.append_assoc, List.cons_append], reached,
    handsOut⟩

/-- Every session goes back to a callback, in the browser that has it.  The
invariant holds without any assumption on the users. -/
structure SessionsGranted (services : Services) (signer : Signer) (deployment : Deployment) (start : World β)
    (events : List (Event β)) (world : World β) : Prop where
  sent : forall token, token ∈ world.sessions -> Exists fun browser : β =>
    Granted services signer deployment start events browser token
  kept : forall browser token, (world.jars browser).session = some token ->
    Granted services signer deployment start events browser token

/-- A step that gives no session to anybody. -/
theorem SessionsGranted.onward {world next : World β}
    (granted : SessionsGranted services signer deployment start events world) (event : Event β)
    (sessions : next.sessions = world.sessions) (jars : forall browser token,
      (next.jars browser).session = some token -> (world.jars browser).session = some token) :
    SessionsGranted services signer deployment start (events ++ [event]) next where
  sent := by
    intro token member
    rcases granted.sent token (sessions ▸ member) with ⟨browser, goesBack⟩
    exact ⟨browser, goesBack.concat event⟩
  kept := fun browser token has => (granted.kept browser token (jars browser token has)).concat event

theorem session_setJar {world : World β} {browser : β} {jar : Jar}
    (kept : jar.session = none ∨ jar.session = (world.jars browser).session) (other : β) (token : String)
    (has : ((world.setJar browser jar).jars other).session = some token) :
    (world.jars other).session = some token := by
  dsimp only [World.setJar] at has
  by_cases same : other = browser
  · subst same
    rw [Function.update_self] at has
    rcases kept with gone | still
    · rw [gone] at has
      cases has
    · exact still ▸ has
  · rwa [Function.update_of_ne same] at has

theorem sessionsGranted_run (begins : Begins start) {last : World β}
    (reached : run (step services signer deployment) start events = some last) :
    SessionsGranted services signer deployment start events last := by
  refine run_history (motive := fun events world =>
    SessionsGranted services signer deployment start events world) ?_ ?_ reached
  · refine ⟨?_, ?_⟩
    · rw [begins.sessions]
      exact List.forall_mem_nil _
    · intro browser token has
      rw [begins.jars] at has
      cases has
  · intro events event middle next before granted taken
    cases event with
    | wait now =>
        simp only [step] at taken
        split at taken
        · cases taken
          exact granted.onward _ rfl (fun _ _ has => has)
        · cases taken
    | request request call answers =>
        cases taken
        exact granted.onward _ rfl (fun _ _ has => has)
    | login browser state =>
        simp only [step] at taken
        split at taken
        · cases taken
          exact granted.onward _ rfl (session_setJar (Or.inr rfl))
        · cases taken
          exact granted.onward _ rfl (fun _ _ has => has)
    | signIn grant =>
        cases taken
        exact granted.onward _ rfl (fun _ _ has => has)
    | logout browser =>
        cases taken
        exact granted.onward _ rfl (session_setJar (Or.inl rfl))
    | forget browser =>
        cases taken
        exact granted.onward _ rfl (session_setJar (Or.inr rfl))
    | callback browser code state =>
        cases taken
        rcases (callback_cases signer deployment middle browser code state).2.2.2 with
          ⟨jars, sessions⟩ | ⟨token, handsOut, jars, sessions⟩
        · exact granted.onward _ sessions (fun other token has => jars ▸ has)
        · have here : Granted services signer deployment start (events ++ [.callback browser code state])
              browser token := ⟨events, code, state, [], middle, rfl, before, handsOut⟩
          refine ⟨?_, ?_⟩
          · intro other member
            rw [sessions] at member
            rcases List.mem_cons.mp member with rfl | earlier
            · exact ⟨browser, here⟩
            · rcases granted.sent other earlier with ⟨owner, goesBack⟩
              exact ⟨owner, goesBack.concat _⟩
          · intro other value has
            rw [jars] at has
            by_cases same : other = browser
            · subst same
              rw [Function.update_self] at has
              cases has
              exact here
            · rw [Function.update_of_ne same] at has
              exact (granted.kept other value has).concat _

/-! ## Whose session it is -/

/-- Cookies hold states that the browser was given, and codes are of accounts of
whoever used the browser.  This part needs the assumption that people are honest. -/
structure LoginInvariant (owns : β -> IdClaims -> Prop) (world : World β) : Prop where
  given : forall browser text, (world.jars browser).oauthState = some text -> (browser, text) ∈ world.issued
  owned : forall grant, grant ∈ world.grants -> owns grant.browser grant.claims

variable {owns : β -> IdClaims -> Prop} {world : World β}

theorem LoginInvariant.setJar (inv : LoginInvariant owns world) {browser : β} {jar : Jar}
    {issued : List (β × String)} (longer : world.issued ⊆ issued)
    (given : forall text, jar.oauthState = some text -> (browser, text) ∈ issued) :
    LoginInvariant owns { world.setJar browser jar with issued := issued } where
  given := by
    intro other text has
    dsimp only [World.setJar] at has
    by_cases same : other = browser
    · subst same
      rw [Function.update_self] at has
      exact given text has
    · rw [Function.update_of_ne same] at has
      exact longer (inv.given other text has)
  owned := inv.owned

theorem LoginInvariant.step (event : Event β) (next : World β) (inv : LoginInvariant owns world)
    (honest : Honest owns world event) (taken : Login.step services signer deployment world event = some next) :
    LoginInvariant owns next := by
  cases event with
  | wait now =>
      simp only [Login.step] at taken
      split at taken
      · cases taken
        exact ⟨inv.given, inv.owned⟩
      · cases taken
  | request request call answers =>
      cases taken
      exact ⟨inv.given, inv.owned⟩
  | login browser state =>
      simp only [Login.step] at taken
      split at taken
      · cases taken
        refine inv.setJar (List.subset_cons_self _ _) ?_
        rintro text ⟨⟩
        exact List.mem_cons_self
      · cases taken
        exact inv
  | signIn grant =>
      cases taken
      exact ⟨inv.given, List.forall_mem_cons.mpr ⟨honest, inv.owned⟩⟩
  | logout browser =>
      cases taken
      exact inv.setJar (List.Subset.refl _) (inv.given browser)
  | forget browser =>
      cases taken
      exact inv.setJar (List.Subset.refl _) nofun
  | callback browser code state =>
      cases taken
      rcases callback_cases signer deployment world browser code state with ⟨_, issued, fewer, change⟩
      refine ⟨?_, fun grant member => inv.owned grant (fewer member)⟩
      intro other text has
      rw [issued]
      rcases change with ⟨jars, _⟩ | ⟨token, _, jars, _⟩
      · exact inv.given other text (jars ▸ has)
      · rw [jars] at has
        by_cases same : other = browser
        · subst same
          rw [Function.update_self] at has
          cases has
        · rw [Function.update_of_ne same] at has
          exact inv.given other text has

omit [DecidableEq β] in
/-- A session is handed out for an account of whoever uses the browser. -/
theorem HandsOut.owned (inv : LoginInvariant owns world) {browser : β} {code state : Option String} {token : String}
    (handsOut : HandsOut signer deployment world browser code state token)
    (honest : Honest owns world (.callback browser code state)) :
    Exists fun claims : IdClaims => Exists fun role : String => Exists fun secret : String =>
      owns browser claims ∧ admits deployment world.store claims.address = some role ∧
        deployment.config.sessionSecret = some secret ∧
        token = signer.encode { email := claims.address, role := role, exp := world.now + sessionTtl } secret := by
  rcases handsOut.admitted with ⟨grant, role, secret, member, same, admitted, configured, written⟩
  rcases isSet_iff.mp handsOut.state_set with ⟨text, carries, _⟩
  have given := inv.given browser text (handsOut.state_eq ▸ carries)
  have own : grant.browser = browser := by
    rcases honest with own | unknown
    · exact own grant member same
    · exact absurd carries (unknown (browser, text) given rfl)
  exact ⟨grant.claims, role, secret, own ▸ inv.owned grant member, admitted, configured, written⟩

omit [DecidableEq β] in
theorem Begins.inv (begins : Begins world) : LoginInvariant owns world where
  given := by
    intro browser text has
    rw [begins.jars] at has
    cases has
  owned := by
    rw [begins.grants]
    exact List.forall_mem_nil _

/-- A session is what it was encoded for, until it expires. -/
theorem decodeSession_eq_ok {session : Session} {secret : String} {now : Int} {claims : Claims}
    (decoded : decodeSession signer now (signer.encode session secret) secret = .ok claims) :
    now ≤ session.exp ∧
      claims = { sub := none, email := some session.email, role := some session.role, roles := none } := by
  unfold decodeSession at decoded
  rw [signer.verify_encode] at decoded
  dsimp only at decoded
  split at decoded
  · cases decoded
  · rename_i valid
    cases decoded
    exact ⟨not_lt.mp valid, rfl⟩

theorem sessionPrincipal_encode {session : Session} {secret : String} {now : Int} {principal : Principal}
    {request : Request} (configured : deployment.config.sessionSecret = some secret)
    (carries : request.sessionCookie = some (signer.encode session secret))
    (accepted : sessionPrincipal (servicesAt services signer now) deployment.config request = .ok (some principal)) :
    now ≤ session.exp ∧ principal.email = session.email ∧ principal.roles = [session.role] := by
  unfold sessionPrincipal at accepted
  rw [carries, configured] at accepted
  split at accepted
  · cases accepted
  · split at accepted
    · cases accepted
    · cases accepted
    · rename_i cookie _ given
      cases given
      split at accepted
      · cases accepted
      · cases accepted
      · rename_i used _ same
        cases same
        split at accepted
        · cases accepted
        · rename_i claims decoded
          rcases decodeSession_eq_ok decoded with ⟨valid, rfl⟩
          cases accepted
          exact ⟨valid, rfl, rfl⟩

/-- In every run, the principal that a browser's session cookie stands for is an
account of whoever uses the browser, which logged in there within the last eight
hours, when the gateway admitted its email with just this role. -/
theorem session_is_own_recent_login (services : Services) (signer : Signer) (deployment : Deployment)
    (owns : β -> IdClaims -> Prop) (start last : World β) (events : List (Event β)) (begins : Begins start)
    (honest : Along (step services signer deployment) (Honest owns) start events)
    (reached : run (step services signer deployment) start events = some last)
    (browser : β) (bearer : Option String) (principal : Principal)
    (accepted : sessionPrincipal (servicesAt services signer last.now) deployment.config
      { bearer := bearer, sessionCookie := (last.jars browser).session } = .ok (some principal)) :
    Exists fun before => Exists fun code => Exists fun state => Exists fun after => Exists fun middle : World β =>
      Exists fun claims : IdClaims => Exists fun role : String =>
        events = before ++ .callback browser code state :: after ∧
          run (step services signer deployment) start before = some middle ∧
          owns browser claims ∧ principal.email = claims.address ∧ principal.roles = [role] ∧
          admits deployment middle.store principal.email = some role ∧ last.now ≤ middle.now + sessionTtl := by
  have granted := sessionsGranted_run begins reached
  cases cookie : (last.jars browser).session with
  | none =>
      rw [cookie] at accepted
      unfold sessionPrincipal at accepted
      split at accepted
      · cases accepted
      · cases accepted
  | some token =>
      rw [cookie] at accepted
      rcases granted.kept browser token cookie with ⟨before, code, state, after, middle, split, first, handsOut⟩
      have allowed : Honest owns middle (.callback browser code state) :=
        along_iff_splits.mp honest before _ after middle split first
      have inv : LoginInvariant owns middle :=
        run_invariant (fun _ event next inv => inv.step event next) begins.inv (split ▸ honest).left first
      rcases handsOut.owned inv allowed with ⟨claims, role, secret, own, admitted, configured, rfl⟩
      rcases sessionPrincipal_encode configured rfl accepted with ⟨valid, email, roles⟩
      exact ⟨before, code, state, after, middle, claims, role, split, first, own, email, roles,
        email ▸ admitted, valid⟩

theorem now_step (event : Event β) (next : World β)
    (taken : Login.step services signer deployment world event = some next) : world.now ≤ next.now := by
  cases event with
  | wait now =>
      simp only [Login.step] at taken
      split at taken
      · rename_i later
        cases taken
        exact later
      · cases taken
  | login browser state =>
      simp only [Login.step] at taken
      split at taken
      · cases taken
        exact le_refl _
      · cases taken
        exact le_refl _
  | callback browser code state =>
      cases taken
      exact ge_of_eq (callback_cases signer deployment world browser code state).1
  | _ =>
      cases taken
      exact le_refl _

theorem now_run {last : World β} (reached : run (step services signer deployment) world events = some last) :
    world.now ≤ last.now := by
  induction events generalizing world with
  | nil =>
      cases reached
      exact le_refl _
  | cons event events ih =>
      rcases run_cons_eq_some.mp reached with ⟨next, taken, rest⟩
      exact le_trans (now_step event next taken) (ih rest)

/-- Whoever has not been given this role for more than eight hours, because the user
was removed, disabled or given another, is not served with it any more, whichever
session of the gateway they present. -/
theorem lost_role_expires (services : Services) (signer : Signer) (deployment : Deployment)
    (start middle last : World β) (first second : List (Event β)) (begins : Begins start)
    (reached : run (step services signer deployment) start first = some middle)
    (onward : run (step services signer deployment) middle second = some last)
    (email role : String)
    (lost : Throughout (step services signer deployment)
      (fun world => admits deployment world.store email ≠ some role) middle second)
    (expired : middle.now + sessionTtl < last.now)
    (cookie : String) (sent : cookie ∈ last.sessions) (bearer : Option String) (principal : Principal)
    (accepted : sessionPrincipal (servicesAt services signer last.now) deployment.config
      { bearer := bearer, sessionCookie := some cookie } = .ok (some principal)) :
    ¬ (principal.email = email ∧ principal.roles = [role]) := by
  rintro ⟨sameEmail, sameRole⟩
  have granted := sessionsGranted_run begins (run_append_eq_some.mpr ⟨middle, reached, onward⟩)
  rcases granted.sent cookie sent with ⟨browser, before, code, state, after, issuing, split, ran, handsOut⟩
  rcases handsOut.admitted with ⟨grant, given, secret, _, _, admitted, configured, rfl⟩
  rcases sessionPrincipal_encode configured rfl accepted with ⟨valid, ofEmail, ofRole⟩
  have address : grant.claims.address = email := ofEmail.symm.trans sameEmail
  have same : given = role := List.singleton_inj.mp (ofRole.symm.trans sameRole)
  rw [address, same] at admitted
  change last.now ≤ issuing.now + sessionTtl at valid
  rcases List.append_eq_append_iff.mp split with ⟨gap, long, rest⟩ | ⟨gap, short, rest⟩
  · rw [long] at ran
    rcases run_append_eq_some.mp ran with ⟨there, same, between⟩
    cases reached.symm.trans same
    rw [rest] at lost
    exact lost.at_prefix between admitted
  · rw [short] at reached
    rcases run_append_eq_some.mp reached with ⟨there, same, between⟩
    cases ran.symm.trans same
    have later := now_run between
    omega

end Protocol

/-- A signer that writes the secret after the claims. -/
def sampleSigner : Signer where
  encode := fun session secret => String.ofList (writeField session.email.toList ++
    (writeField session.role.toList ++ (writeField (intText session.exp) ++ secret.toList)))
  verify := fun token secret => do
    let (email, afterEmail) <- readField token.toList
    let (role, afterRole) <- readField afterEmail
    let (exp, signature) <- readField afterRole
    if signature = secret.toList then
      some { email := String.ofList email, role := String.ofList role, exp := ← readInt exp }
    else none
  verify_encode := by
    intro session secret
    simp [readInt_intText]

/-- Browser 1 is Ada's.  Somebody else uses browser 2. -/
def sampleOwns (browser : Nat) (claims : IdClaims) : Prop :=
  claims.email = some (if browser = 1 then "Ada@example.org" else "eve@example.org")

instance (browser : Nat) (claims : IdClaims) : Decidable (sampleOwns browser claims) :=
  inferInstanceAs (Decidable (_ = _))

def sampleDeployment : Deployment where
  config :=
    { gatewayJwksUrl := "", gatewayJwtIssuer := "", gatewayJwtAudience := "", azureClientId := some "app"
      azureTenantId := some "tenant", sessionSecret := some "secret" }
  authBootstrapAdmins := "ada@example.org, bob@example.org"

def sampleStart : World Nat where
  now := 0
  store :=
    { connections := [], nextConnectionId := 1, selection := [], watermarks := [], chunkState := [], tokens := []
      nextTokenId := 1
      users := Function.update (fun _ => none) "cara@example.org" (some { role := "admin", enabled := true })
      settings := fun _ => none, catalog := [], objects := [], runs := [], nextRunId := 0 }
  jars := fun _ => { oauthState := none, session := none }
  issued := []
  grants := []
  sessions := []

def accountOf (email : String) : IdClaims :=
  { email := some email, preferredUsername := none, upn := none }

/-- While Ada logs in, a page sends her browser to the callback with a code and a
state of browser 2. -/
def sampleLogin : List (Event Nat) :=
  [.login 1 "s1", .login 2 "s2", .signIn { browser := 2, code := "c2", claims := accountOf "eve@example.org" },
    .callback 1 (some "c2") (some "s2"),
    .signIn { browser := 1, code := "c1", claims := accountOf "Ada@example.org" },
    .callback 1 (some "c1") (some "s1"), .wait 28800]

theorem sampleStart_begins : Begins sampleStart :=
  ⟨fun _ => rfl, rfl, rfl, rfl⟩

def adaSession : String :=
  sampleSigner.encode { email := "ada@example.org", role := "admin", exp := 28800 } "secret"

def ada : Principal :=
  sessionPrincipalOf "ada@example.org"
    { sub := none, email := some "ada@example.org", role := some "admin", roles := none }

theorem ada_logged_in_herself : Exists fun last : World Nat =>
    run (step forgedServices sampleSigner sampleDeployment) sampleStart sampleLogin = some last ∧
      Exists fun before => Exists fun code => Exists fun state => Exists fun after =>
        Exists fun middle : World Nat => Exists fun claims : IdClaims => Exists fun role : String =>
          sampleLogin = before ++ .callback 1 code state :: after ∧
            run (step forgedServices sampleSigner sampleDeployment) sampleStart before = some middle ∧
            sampleOwns 1 claims ∧ ada.email = claims.address ∧ ada.roles = [role] ∧
            admits sampleDeployment middle.store ada.email = some role ∧ last.now ≤ middle.now + sessionTtl := by
  have ran : Exists fun last : World Nat =>
      run (step forgedServices sampleSigner sampleDeployment) sampleStart sampleLogin = some last ∧
        last.now = 28800 ∧ (last.jars 1).session = some adaSession := ⟨_, rfl, rfl, rfl⟩
  rcases ran with ⟨last, reached, now, session⟩
  refine ⟨last, reached, session_is_own_recent_login forgedServices sampleSigner sampleDeployment sampleOwns
    sampleStart last sampleLogin sampleStart_begins (by decide) reached 1 none ada ?_⟩
  rw [now, session]
  rfl

def noAnswers : Answers :=
  { dsnPassword := fun _ => "", testDb := fun _ => none, ensureBucket := fun _ _ _ _ => none
    undeletedObjects := [], undeletedRuns := [], secret := "", launchError := none }

/-- Ada makes Cara a viewer, who was an admin. -/
def sampleDemotion : List (Event Nat) :=
  [.login 1 "s1", .signIn { browser := 1, code := "c1", claims := accountOf "Ada@example.org" },
    .callback 1 (some "c1") (some "s1"),
    .request { bearer := none, sessionCookie := some adaSession }
      (.upsertUser { email := "cara@example.org", role := "viewer", enabled := true }) noAnswers]

/-- Cara logs in more than eight hours later. -/
def sampleReturn : List (Event Nat) :=
  [.wait 28801, .login 2 "s2", .signIn { browser := 2, code := "c2", claims := accountOf "cara@example.org" },
    .callback 2 (some "c2") (some "s2")]

def demoted : World Nat :=
  (run (step forgedServices sampleSigner sampleDeployment) sampleStart sampleDemotion).getD sampleStart

def caraSession : String :=
  sampleSigner.encode { email := "cara@example.org", role := "viewer", exp := 57601 } "secret"

def cara : Principal :=
  sessionPrincipalOf "cara@example.org"
    { sub := none, email := some "cara@example.org", role := some "viewer", roles := none }

theorem cara_is_no_admin : Exists fun last : World Nat =>
    run (step forgedServices sampleSigner sampleDeployment) demoted sampleReturn = some last ∧
      ¬ (cara.email = "cara@example.org" ∧ cara.roles = ["admin"]) := by
  have ran : Exists fun last : World Nat =>
      run (step forgedServices sampleSigner sampleDeployment) demoted sampleReturn = some last ∧
        last.now = 28801 ∧ caraSession ∈ last.sessions := ⟨_, rfl, rfl, List.mem_cons_self⟩
  rcases ran with ⟨last, onward, now, sent⟩
  refine ⟨last, onward, lost_role_expires forgedServices sampleSigner sampleDeployment sampleStart demoted last
    sampleDemotion sampleReturn sampleStart_begins rfl onward "cara@example.org" "admin" (by decide) ?_
    caraSession sent none cara ?_⟩
  · rw [now]
    decide
  · rw [now]
    rfl

end Login
end WarehouseSync

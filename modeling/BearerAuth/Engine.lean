import BearerAuth.Challenge
import BearerAuth.Request
import BearerAuth.Token.Verifier

namespace BearerAuth

/-- A verified token. -/
structure VerifiedToken where
  token : String
  candidate : TokenCandidate
  claims : Claims

/-- What is configured for the authentication of requests. -/
structure Engine where
  sources : List HeaderSource
  realm : Option String := none
  usernameClaims : List ClaimPath := []
  rolesClaim : Option ClaimPath := none
  trapErrors : Bool := true
deriving DecidableEq, Repr

namespace Engine

/-- The engine that reads bearer tokens from the usual header. -/
def standard : Engine := { sources := [.authorizationBearer] }

/-- An engine for sources; one at least. -/
def ofSources (sources : List HeaderSource) : Except ConfigurationError Engine :=
  if sources.isEmpty then
    .error (.invalidHeaderSource "at least one header source must be configured")
  else .ok { sources }

/-- The engine with a realm; a blank one is none. -/
def withRealm (e : Engine) (realm : String) : Engine :=
  { e with realm := if Text.isBlank realm then none else some realm }

/-- The engine with claims that name the user, tried in order. -/
def withUsernameClaims (e : Engine) (claims : List ClaimPath) : Engine :=
  { e with usernameClaims := claims.filter ClaimPath.isSet }

def withRolesClaim (e : Engine) (claim : ClaimPath) : Engine :=
  { e with rolesClaim := if claim.isSet then some claim else none }

def text (e : Engine) : String :=
  let headers := Text.join ", " (e.sources.map HeaderSource.text)
  let realm := e.realm.getD "<request-url>"
  let claims := Text.join ", " (e.usernameClaims.map ClaimPath.text)
  let roles := (e.rolesClaim.map ClaimPath.text).getD "<none>"
  s!"HeaderBasedEngine\x7bheaders=[{headers}], realm={realm}, usernameClaims=[{claims}], " ++
    s!"rolesClaim={roles}\x7d"

/-- Whether a header of one of some sources has a value that is not blank, and how often a header
was looked at when that is known. -/
def hasCredentials (r : Request) (looks : Nat) : List HeaderSource → Attempt Empty (Bool × Nat)
  | [] => .ok (false, looks)
  | source :: rest => do
    let values ← r.headerValues looks source.header
    if values.any fun v => !Text.isBlank v then
      return (true, looks + 1)
    else
      hasCredentials r (looks + 1) rest

/-- The candidates of some sources, in their order. -/
def candidatesOf (r : Request) (looks : Nat) :
    List HeaderSource → Attempt Empty (List TokenCandidate)
  | [] => .ok []
  | source :: rest => do
    let values ← r.headerValues looks source.header
    return values.map (fun v => ⟨source, some v⟩) ++ (← candidatesOf r (looks + 1) rest)

/-- Whether a request carries anything in a header that may hold a token. -/
def hasRequiredParameters (e : Engine) (r : Request) : Attempt Empty (Bool × Nat) :=
  hasCredentials r 0 e.sources

def candidates (e : Engine) (r : Request) (looks : Nat) : Attempt Empty (List TokenCandidate) :=
  candidatesOf r looks e.sources

def usableName? : Json → Option String
  | .string s => if Text.isBlank s then none else some s
  | _ => none

/-- The name of the user in claims: the first usable one of the configured claims, else the
subject. -/
def username? (e : Engine) (claims : Claims) : Option String :=
  (e.usernameClaims.findSome? fun path => (path.find? claims).bind usableName?).or
    ((claims.get? "sub").bind usableName?)

/-- The realm of challenges: the configured one, else the address of the request. -/
def realmFor (e : Engine) (r : Request) : Attempt Empty String :=
  match e.realm with
  | some realm => .ok realm
  | none => r.address

/-- Sends a challenge. Its realm is found before anything is done to the response. -/
def sendChallenge (e : Engine) (r : Request) (c : Challenge) :
    Answer (Attempt String (Option User)) :=
  match e.realmFor r with
  | .panic p => ⟨.panic p, []⟩
  | .ok realm =>
    ⟨.ok none, [.setStatus c.status, .addHeader ChallengeHeader.name (c.header realm)]⟩

/-- Verifies candidates in turn: the tokens that are good, and the challenges of the others. A
panic ends it. -/
def verifyAll : Verifier → List TokenCandidate →
    Run (Attempt Empty (List VerifiedToken × List Challenge) × Verifier)
  | v, [] => pure (.ok ([], []), v)
  | v, c :: rest =>
    match c.token? with
    | none => do
      let (result, v) ← verifyAll v rest
      return (result.bind fun (tokens, challenges) =>
        .ok (tokens, Challenge.noToken :: challenges), v)
    | some token => do
      let (verdict, v) ← v.verify token
      match verdict with
      | .panic p => return (.panic p, v)
      | .ok claims =>
        let (result, v) ← verifyAll v rest
        return (result.bind fun (tokens, challenges) =>
          .ok (⟨token, c, claims⟩ :: tokens, challenges), v)
      | .error error =>
        let (result, v) ← verifyAll v rest
        return (result.bind fun (tokens, challenges) =>
          .ok (tokens, Challenge.ofError error :: challenges), v)

/-- The first verified token that names a user, with that name. -/
def winner? (e : Engine) (tokens : List VerifiedToken) : Option (VerifiedToken × String) :=
  tokens.findSome? fun t => (e.username? t.claims).map fun name => (t, name)

def userOf (e : Engine) (t : VerifiedToken) (username : String) : User :=
  ⟨username, t.token, t.candidate.source, t.claims, e.rolesClaim⟩

def reportChallenge (c : Challenge) : Run Unit :=
  Run.report {
    level := .warn, area := .engine
    message := s!"JWT authentication failed: {c.description}"
    fields := [("status", toString c.status), ("error", c.error)] }

def refuse (e : Engine) (r : Request) (challenges : List Challenge) :
    Run (Answer (Attempt String (Option User))) := do
  challenges.forM reportChallenge
  return e.sendChallenge r (challenges.headD .noToken)

def settle (e : Engine) (r : Request) (tokens : List VerifiedToken) (challenges : List Challenge) :
    Run (Answer (Attempt String (Option User))) :=
  match e.winner? tokens with
  | some (token, username) => do
    Run.say .info .engine s!"Authenticated user {username} via {token.candidate.source.text}"
    let user := e.userOf token username
    return ⟨(r.attach user).bind fun () => .ok (some user), []⟩
  | none => e.refuse r (challenges ++ tokens.map fun _ => .noUsername)

/-- Authenticates a request; an error and a panic are left to the caller. -/
def attempt (e : Engine) (r : Request) (v : Verifier) :
    Run (Answer (Attempt String (Option User)) × Verifier) :=
  match e.hasRequiredParameters r with
  | .panic p => pure (⟨.panic p, []⟩, v)
  | .ok (false, _) => pure (e.sendChallenge r .noCredentials, v)
  | .ok (true, looks) =>
    match e.candidates r looks with
    | .panic p => pure (⟨.panic p, []⟩, v)
    | .ok [] => pure (e.sendChallenge r .noToken, v)
    | .ok (c :: rest) => do
      match ← verifyAll v (c :: rest) with
      | (.panic p, v) => return (⟨.panic p, []⟩, v)
      | (.ok (tokens, challenges), v) => return (← e.settle r tokens challenges, v)

def unexpectedError : String := "Unexpected error during JWT authentication"

/-- Turns an error or a panic into a report and the answer of a broken server. -/
def trap (answer : Answer (Attempt String (Option User))) :
    Run (Answer (Attempt String (Option User))) :=
  let broken (reason : String) : Run (Answer (Attempt String (Option User))) := do
    Run.report {
      level := .error, area := .engine, message := unexpectedError
      fields := [("error", reason)] }
    return ⟨.ok none, answer.actions ++ [.sendError 500 unexpectedError]⟩
  match answer.outcome with
  | .ok _ => pure answer
  | .error reason => broken reason
  | .panic p => broken s!"panic during authentication: {p.message}"

/-- Authenticates a request. There is no user if a challenge or an error was sent. -/
def authenticate (e : Engine) (r : Request) (v : Verifier) :
    Run (Answer (Attempt String (Option User)) × Verifier) := do
  let (answer, v) ← e.attempt r v
  if e.trapErrors then
    return (← trap answer, v)
  else
    return (answer, v)

end Engine

end BearerAuth

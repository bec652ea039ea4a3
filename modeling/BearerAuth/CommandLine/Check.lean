import BearerAuth.CommandLine.Arguments
import BearerAuth.Filter
import BearerAuth.Http.Message
import BearerAuth.Logging.Config

namespace BearerAuth

def Request.ofMessage (m : Http.Message) : Request where
  headerValues _ name := .ok (m.headerValues name)
  path := m.target.path
  address := .ok m.target.address
  attach _ := .ok ()

def Http.Response.perform (r : Http.Response) (actions : List ResponseAction) :
    Run Http.Response :=
  actions.foldlM (fun r action =>
    match action with
    | .setStatus status => pure (r.setStatus status)
    | .addHeader name value => r.addHeader name value
    | .sendError status _ => pure (r.setStatus status)) r

namespace CommandLine

/-- What the command leaves behind: its exit code, the lines it writes, and the line about an
error. -/
structure Outcome where
  exit : Nat
  lines : List String := []
  error : Option String := none
deriving DecidableEq, Repr

/-- Why a request cannot be built. -/
inductive RequestError where
  | target (e : Http.Uri.ParseError)
  | headerName
  | headerValue
deriving DecidableEq, Repr

def RequestError.message : RequestError → String
  | .target e => e.message
  | .headerName => "invalid HTTP header name"
  | .headerValue => "failed to parse header value"

def addField (headers : Http.HeaderMap) (field : String × String) :
    Except RequestError Http.HeaderMap :=
  match Http.headerName? field.1 with
  | none => .error .headerName
  | some name =>
    if Http.isHeaderValue field.2 then .ok (headers.append name field.2) else .error .headerValue

def message (i : Invocation) : Except RequestError Http.Message := do
  let target ← (Http.Uri.parse (i.path.getD "/")).mapError RequestError.target
  return ⟨target, ← i.headers.foldlM addField []⟩

/-- The parameters that are asked for: those given, those of the file, those of the environment. -/
def parameters (w : Surroundings) (i : Invocation) : Except Parameters.FileFailure Parameters := do
  let file ← match i.paramsFile with
    | none => pure []
    | some path => Parameters.ofFile w.files path
  return Parameters.layered [
    Parameters.ofList i.params.reverse,
    Parameters.ofList file,
    if i.env then Parameters.ofEnvironment w.environment else fun _ => none]

/-- The outcome of an error with the errors behind it. -/
def failed (chain : List String) : Outcome :=
  { exit := 2, error := some ("error: " ++ Text.join ": " chain) }

def report (path : String) (answer : Answer (Attempt FilterError FilterOutcome)) : Run Outcome :=
  match answer.outcome with
  | .ok (.authenticated user) =>
    let roles := Text.join ", " user.roles
    pure { exit := 0, lines := [s!"authenticated: {user.username}", s!"roles: [{roles}]"] }
  | .ok .excluded => pure { exit := 0, lines := [s!"excluded: {path}"] }
  | .ok .rejected => do
    let response ← Http.Response.perform {} answer.actions
    let challenges := (response.headers.valuesOf ChallengeHeader.name).map fun value =>
      let shown := if Http.isReadable value then value else "<invalid>"
      s!"{ChallengeHeader.name}: {shown}"
    return { exit := 1, lines := s!"rejected: {response.status}" :: challenges }
  | .error e => pure (failed e.chain)
  | .panic p => pure { exit := 101, error := some p.message }

def check (i : Invocation) : Run Outcome := do
  match parameters (← Run.surroundings) i with
  | .error e => return failed e.chain
  | .ok p =>
    let filter : Filter := { defaultEngine := ← Shared.fresh Engine.standard }
    let filter ← filter.configure {} p
    match message i with
    | .error e => return failed ["Invalid request", e.message]
    | .ok m =>
      let (answer, _) ← filter.handle (.ofMessage m)
      report (i.path.getD "/") answer

def run (arguments : List String) : Run Outcome := do
  let environment := (← Run.surroundings).environment
  match Invocation.ofArguments environment arguments with
  | .error (.usage e) => return { exit := 2, error := some ("error: " ++ e.message) }
  | .error .help => return { exit := 0, lines := help environment }
  | .error .version => return { exit := 0, lines := [version] }
  | .ok i => check i

def shownEvents (environment : List (String × String)) (events : List Event) : List Event :=
  events.filter ((LogConfig.ofEnvironment environment).selection environment).shows

end CommandLine

end BearerAuth

import BearerAuth.Text.Basic

/-!
The arguments of the command: options with a value, in the long form `--name value` or
`--name=value` or in the short form `-n value`, `-nvalue` or `-n=value`, and flags. An option that
waits for its value is settled when the next one is met; an argument that is unknown is reported
before anything that waits.
-/

namespace BearerAuth.CommandLine

/-- The options and flags of the command. -/
inductive Argument where
  | param
  | paramsFile
  | header
  | path
  | env
  | help
  | version
deriving DecidableEq, Repr

namespace Argument

/-- All options and flags, in the order of the help. -/
def all : List Argument := [.param, .paramsFile, .header, .path, .env, .help, .version]

def long : Argument → String
  | .param => "param"
  | .paramsFile => "params-file"
  | .header => "header"
  | .path => "path"
  | .env => "env"
  | .help => "help"
  | .version => "version"

def short? : Argument → Option Char
  | .param => some 'p'
  | .header => some 'H'
  | .help => some 'h'
  | .version => some 'V'
  | _ => none

/-- What the value of an option is called; flags have none. -/
def placeholder? : Argument → Option String
  | .param => some "PARAMS"
  | .paramsFile => some "PARAMS_FILE"
  | .header => some "HEADERS"
  | .path => some "PATH"
  | _ => none

def takesValue (a : Argument) : Bool := a.placeholder?.isSome

def text (a : Argument) : String :=
  match a.placeholder? with
  | some value => s!"--{a.long} <{value}>"
  | none => s!"--{a.long}"

/-- What the help says of an option; the setting of the environment is shown. -/
def about (setting : String) : Argument → String
  | .param =>
    "Configuration parameter, e.g. \x60jwt.jwks.url=https://issuer/jwks.json\x60 (repeatable)"
  | .paramsFile =>
    "TOML file of parameters; \x60--param\x60 values take precedence " ++
      s!"[env: JWT_AUTH_PARAMS_FILE={setting}]"
  | .header => "Request header, e.g. \x60Authorization: Bearer eyJ...\x60 (repeatable)"
  | .path => "Request path [default: /]"
  | .env => "Also read parameters from JWT_* environment variables"
  | .help => "Print help"
  | .version => "Print version"

def helpLine (setting : String) (a : Argument) : String :=
  let short := match a.short? with
    | some c => s!"  -{c}, "
    | none => "      "
  let width := (all.map fun b => b.text.length).foldl max 0
  let gap := String.ofList (List.replicate (width - a.text.length + 2) ' ')
  short ++ a.text ++ gap ++ a.about setting

end Argument

/-- What the command is asked to do. -/
structure Invocation where
  params : List (String × String) := []
  paramsFile : Option String := none
  headers : List (String × String) := []
  path : Option String := none
  env : Bool := false
deriving DecidableEq, Repr

/-- Why the arguments are not understood. -/
inductive UsageError where
  | unexpected (argument : String)
  | missingValue (a : Argument)
  | repeated (a : Argument)
  | needlessValue (value : String) (a : Argument)
  | invalidValue (value : String) (a : Argument) (reason : String)
deriving DecidableEq, Repr

def UsageError.message : UsageError → String
  | .unexpected argument => s!"unexpected argument '{argument}' found"
  | .missingValue a => s!"a value is required for '{a.text}' but none was supplied"
  | .repeated a => s!"the argument '{a.text}' cannot be used multiple times"
  | .needlessValue value a =>
    s!"unexpected value '{value}' for '{a.text}' found; no more were expected"
  | .invalidValue value a reason => s!"invalid value '{value}' for '{a.text}': {reason}"

/-- What ends the reading of arguments early. -/
inductive Stop where
  | usage (e : UsageError)
  | help
  | version
deriving DecidableEq, Repr

/-- An option that waits: with its value, or for it. -/
structure Pending where
  argument : Argument
  value : Option String

/-- A name and a value with a separator between them; the name is trimmed and not blank. -/
def nameAndValue? (separator : Char) (s : String) : Option (String × String) := do
  let (name, value) ← Text.splitOnce separator s
  return (← Text.nonBlank? name, value)

namespace Invocation

def assign (i : Invocation) (a : Argument) (value : String) : Except Stop Invocation :=
  let refuse (e : UsageError) : Except Stop Invocation := .error (.usage e)
  match a with
  | .param =>
    match nameAndValue? '=' value with
    | some param => .ok { i with params := i.params ++ [param] }
    | none => refuse (.invalidValue value a s!"expected name=value, got '{value}'")
  | .header =>
    match nameAndValue? ':' value with
    | some (name, v) => .ok { i with headers := i.headers ++ [(name, Text.trim v)] }
    | none => refuse (.invalidValue value a s!"expected 'Name: value', got '{value}'")
  | .path =>
    if i.path.isSome then refuse (.repeated a) else .ok { i with path := some value }
  | .paramsFile =>
    if i.paramsFile.isSome then refuse (.repeated a)
    else if value.isEmpty then refuse (.missingValue a)
    else .ok { i with paramsFile := some value }
  | _ => .ok i

def settle (i : Invocation) : Option Pending → Except Stop Invocation
  | none => .ok i
  | some ⟨a, none⟩ => .error (.usage (.missingValue a))
  | some ⟨a, some value⟩ => i.assign a value

def raise (i : Invocation) (a : Argument) : Except Stop Invocation :=
  match a with
  | .help => .error .help
  | .version => .error .version
  | .env => if i.env then .error (.usage (.repeated a)) else .ok { i with env := true }
  | _ => .ok i

/-- Takes an option with the value that is attached to it, if one is. -/
def takeOption (i : Invocation) (pending : Option Pending) (a : Argument) (value : Option String) :
    Except Stop (Invocation × Option Pending) := do
  let i ← i.settle pending
  match value with
  | some v => return (← i.assign a v, none)
  | none => return (i, some ⟨a, none⟩)

def takeLong (i : Invocation) (pending : Option Pending) (body : String) :
    Except Stop (Invocation × Option Pending) := do
  let (name, value) := match Text.splitOnce '=' body with
    | some (name, value) => (name, some value)
    | none => (body, none)
  match Argument.all.find? fun a => a.long == name with
  | none => throw (.usage (.unexpected s!"--{name}"))
  | some a =>
    if a.takesValue then i.takeOption pending a value
    else
      match value with
      | some v => throw (.usage (.needlessValue v a))
      | none => return (← (← i.settle pending).raise a, none)

def takeShort (i : Invocation) (pending : Option Pending) :
    List Char → Except Stop (Invocation × Option Pending)
  | [] => .ok (i, pending)
  | c :: rest =>
    match Argument.all.find? fun a => a.short? == some c with
    | none => .error (.usage (.unexpected s!"-{c}"))
    | some a =>
      if a.takesValue then
        let value := match rest with
          | [] => none
          | '=' :: v => some (String.ofList v)
          | v => some (String.ofList v)
        i.takeOption pending a value
      else do takeShort (← (← i.settle pending).raise a) none rest

/-- Takes an argument that is no option: the value of the option that waits for one. -/
def takeValue (i : Invocation) (pending : Option Pending) (argument : String) :
    Except Stop (Invocation × Option Pending) :=
  match pending with
  | some ⟨a, none⟩ => .ok (i, some ⟨a, some argument⟩)
  | _ => .error (.usage (.unexpected argument))

def read (i : Invocation) (pending : Option Pending) : List String → Except Stop Invocation
  | [] => i.settle pending
  | argument :: rest =>
    match argument.toList with
    | ['-', '-'] =>
      match rest with
      | [] => i.settle pending
      | positional :: _ => .error (.usage (.unexpected positional))
    | '-' :: '-' :: body => do
      let (i, pending) ← i.takeLong pending (String.ofList body)
      read i pending rest
    | '-' :: c :: body => do
      let (i, pending) ← i.takeShort pending (c :: body)
      read i pending rest
    | _ => do
      let (i, pending) ← i.takeValue pending argument
      read i pending rest

/-- What arguments ask for; the file of parameters may be named by the environment. -/
def ofArguments (environment : List (String × String)) (arguments : List String) :
    Except Stop Invocation := do
  let i ← read {} none arguments
  match i.paramsFile, environment.lookup "JWT_AUTH_PARAMS_FILE" with
  | none, some path => i.assign .paramsFile path
  | _, _ => return i

end Invocation

def help (environment : List (String × String)) : List String :=
  let setting := (environment.lookup "JWT_AUTH_PARAMS_FILE").getD ""
  ["Check how the JWT authentication filter treats a request", "",
    "Usage: jwt-auth-check [OPTIONS]", "", "Options:"] ++
    Argument.all.map (Argument.helpLine setting)

def version : String := "jwt-auth-check 0.1.0-alpha.1"

end BearerAuth.CommandLine

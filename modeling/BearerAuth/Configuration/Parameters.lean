import BearerAuth.Surroundings.Run
import BearerAuth.Text.Basic
import BearerAuth.Toml.Document

namespace BearerAuth

abbrev Parameters := String → Option String

namespace Parameters

/-- The parameters of a list; the first entry of a name counts. -/
def ofList (entries : List (String × String)) : Parameters := fun name => entries.lookup name

def layered (layers : List Parameters) : Parameters := fun name =>
  layers.findSome? fun layer => layer name

def variableName (name : String) : String :=
  String.ofList (name.toList.map fun c => if c == '.' || c == '-' then '_' else c.toUpper)

def ofEnvironment (environment : List (String × String)) : Parameters := fun name =>
  environment.lookup (variableName name)

/-- A parameter that is not blank, trimmed. -/
def string? (p : Parameters) (name : String) : Option String := (p name).bind Text.nonBlank?

def truthValue? (text : String) : Option Bool :=
  match Text.asciiLower text with
  | "true" | "yes" | "1" => some true
  | "false" | "no" | "0" => some false
  | _ => none

/-- The number of decimal digits, with a plus sign in front or none, that fits 64 bits. -/
def number64? (text : String) : Option Nat :=
  let digits := match text.toList with
    | '+' :: rest => rest
    | cs => cs
  if !digits.isEmpty && digits.all (fun c => '0' ≤ c && c ≤ '9') then
    let n := digits.foldl (fun n c => n * 10 + (c.toNat - 48)) 0
    if n < 0x10000000000000000 then some n else none
  else none

def boolean (p : Parameters) (name : String) (default : Bool) : Run Bool :=
  match p.string? name with
  | none => pure default
  | some text =>
    match truthValue? text with
    | some b => pure b
    | none => do
      Run.say .warn .parameters
        s!"Parameter {name} has non-boolean value '{text}', using {default}"
      return default

def number (p : Parameters) (name : String) (default : Nat) : Run Nat :=
  match p.string? name with
  | none => pure default
  | some text =>
    match number64? text with
    | some n => pure n
    | none => do
      Run.say .warn .parameters
        s!"Parameter {name} has non-numeric value '{text}', using {default}"
      return default

/-- The trimmed parts of a comma separated parameter; blank ones keep their places. -/
def list (p : Parameters) (name : String) : List String :=
  match p.string? name with
  | none => []
  | some text => (Text.split ',' text).map Text.trim

def itemText : Toml → String
  | .string s => s
  | v => v.text

mutual

/-- The parameters of a value under a name: those of a table have the name and a dot in front. -/
def flatten (name : String) : Toml → List (String × String)
  | .table entries => flattenEntries name entries
  | .string s => [(name, s)]
  | .array items => [(name, Text.join "," (items.map itemText))]
  | .integer i => [(name, Toml.text (.integer i))]
  | .float x => [(name, Toml.text (.float x))]
  | .boolean b => [(name, Toml.text (.boolean b))]
  | .moment t => [(name, Toml.text (.moment t))]

def flattenEntries (name : String) : List (String × Toml) → List (String × String)
  | [] => []
  | (key, v) :: rest =>
    flatten (if name.isEmpty then key else s!"{name}.{key}") v ++ flattenEntries name rest

end

def distinct (entries : List (String × String)) : List (String × String) :=
  entries.foldl (fun kept e => e :: kept.filter (·.1 != e.1)) []

/-- The parameters of a document, each name once. -/
def ofDocument? (text : String) : Option (List (String × String)) :=
  (Toml.document? text).map fun entries => distinct (flattenEntries "" entries)

/-- Why a file gives no parameters. -/
inductive FileFailure where
  | unreadable (path : String) (e : FileError)
  | malformed (path : String)
deriving DecidableEq, Repr

def malformedDocument : String := "TOML parse error"

/-- The messages of a failure, outermost first. -/
def FileFailure.chain : FileFailure → List String
  | .unreadable path e => [s!"Failed to read parameters file {path}", e.message]
  | .malformed path => [s!"Failed to parse parameters file {path}", malformedDocument]

def ofFile (files : FileSystem) (path : String) :
    Except FileFailure (List (String × String)) := do
  let text ← (files.readText path).mapError (FileFailure.unreadable path)
  match ofDocument? text with
  | some entries => return entries
  | none => throw (.malformed path)

end Parameters

end BearerAuth

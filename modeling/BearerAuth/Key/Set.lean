import BearerAuth.Json.Parser
import BearerAuth.Token.Algorithm
import BearerAuth.Key.Jwk
import BearerAuth.Surroundings.Run

namespace BearerAuth

/-- Where a key set is. -/
inductive KeySetLocation where
  | network (url : Url)
  | file (path : String)
deriving DecidableEq, Repr

namespace KeySetLocation

/-- The location of an address of the network, of an address of a file, or of the path of a file
that is there. -/
def ofText (files : FileSystem) (text : String) : Except KeyError KeySetLocation :=
  let text := Text.trim text
  let asFile : Except KeyError KeySetLocation :=
    if files.isFile text then .ok (.file text) else .error (.unsupportedScheme text)
  match Url.parse? text with
  | none => asFile
  | some url =>
    if url.schemeName == "http" || url.schemeName == "https" then .ok (.network url)
    else if url.schemeName == "file" then
      match url.filePath? with
      | some path => .ok (.file path)
      | none => .error (.unsupportedScheme text)
    else asFile

def text : KeySetLocation → String
  | .network url => url.text
  | .file path => "file://" ++ path

end KeySetLocation

/-- Keys by their identifiers, in the order they are published. -/
abbrev KeySet := List (String × KeyMaterial)

namespace KeySet

/-- The published key of an entry: one that is usable and has an identifier. -/
def entry? (v : Json) : Option (String × KeyMaterial) := do
  let key ← Jwk.ofJson? v
  let id ← key.keyId
  if Text.isBlank id then none else some (id, key.material)

/-- The keys of a document. Entries that are no usable keys are passed over. -/
def ofDocument (uri document : String) : Except KeyError KeySet := do
  let v ← (Json.read document).mapError fun e => KeyError.invalidDocument uri e.message
  match (v.member? "keys").bind Json.array? with
  | some entries => return entries.filterMap entry?
  | none => throw (.invalidDocument uri "missing 'keys' array")

def readDocument (location : KeySetLocation) : Run (Except KeyError String) :=
  match location with
  | .network url => Run.fetchKeys url.text
  | .file path => do
    let files := (← Run.surroundings).files
    return (files.readText path).mapError fun e => .fetch location.text e.message

def load (location : KeySetLocation) : Run (Except KeyError KeySet) := do
  return (← readDocument location).bind (ofDocument location.text)

/-- The key that a published set has for an identifier: the first one. -/
def locate (location : KeySetLocation) (header : KeyHeader) : Run (Except KeyError KeyMaterial) :=
  match header.requireKeyId with
  | .error e => pure (.error e)
  | .ok id => do
    match ← load location with
    | .error e => return .error e
    | .ok keys =>
      match keys.lookup id with
      | some key => return .ok key
      | none => return .error (.keyNotFound id location.text)

end KeySet

end BearerAuth

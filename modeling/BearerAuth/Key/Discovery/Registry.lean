import BearerAuth.Duration
import BearerAuth.Json.Parser
import BearerAuth.Recency

namespace BearerAuth

/-- What a provider says about itself. -/
structure ProviderConfiguration where
  issuer : Option String
  jwksUri : Option String
  userinfoEndpoint : Option String
  extra : Json.Members
deriving DecidableEq, Repr

namespace ProviderConfiguration

def knownMembers : List String := ["issuer", "jwks_uri", "userinfo_endpoint"]

/-- A text, null or nothing under a name that occurs once at most. -/
def optionalText (members : Json.Members) (name : String) : Option (Option String) :=
  match members.filter (·.1 == name) with
  | [] => some none
  | [(_, .null)] => some none
  | [(_, .string s)] => some (some s)
  | _ => none

/-- The configuration of a parsed document, whose members are still as they were written. -/
def ofJson? (v : Json) : Option ProviderConfiguration := do
  let members ← v.object?
  let extra := members.filter fun m => !knownMembers.contains m.1
  return {
    issuer := ← optionalText members "issuer"
    jwksUri := ← optionalText members "jwks_uri"
    userinfoEndpoint := ← optionalText members "userinfo_endpoint"
    extra := Json.Members.sorted (Json.canonicalMembers extra) }

/-- The configuration of a document, or what the reader says is wrong with it. -/
def ofText (messages : Json.FormMessages) (text : String) : Except String ProviderConfiguration :=
  match Json.document text with
  | .error e => .error e.message
  | .ok v =>
    match ofJson? v with
    | some configuration => .ok configuration
    | none => .error (messages.provider (Text.Utf8.encode text))

/-- A configuration as a value, with its further members apart. -/
def toJson (c : ProviderConfiguration) : Json :=
  let text (s : Option String) : Json := (s.map Json.string).getD .null
  .object [
    ("issuer", text c.issuer),
    ("jwks_uri", text c.jwksUri),
    ("userinfo_endpoint", text c.userinfoEndpoint),
    ("extra", .object c.extra)]

end ProviderConfiguration

/-- Known configurations by the address of their document, with the instant at which each became
known. The five most recently used are kept. -/
abbrev ProviderRegistry := RecencyMap 5 (ProviderConfiguration × Duration)

namespace ProviderRegistry

def lifetime : Duration := Duration.ofMinutes 15

def register (r : ProviderRegistry) (instant : Duration) (uri : String)
    (configuration : ProviderConfiguration) : ProviderRegistry :=
  r.put uri (configuration, instant)

/-- The configuration known for an address; one that is too old is forgotten. -/
def find (r : ProviderRegistry) (instant : Duration) (uri : String) :
    Option ProviderConfiguration × ProviderRegistry :=
  match r.get uri with
  | (some (configuration, known), r) =>
    if instant - known < lifetime then (some configuration, r) else (none, r.erase uri)
  | (none, r) => (none, r)

end ProviderRegistry

end BearerAuth

import BearerAuth.Key.Jwk

namespace BearerAuth.HeaderForm

def texts : List String :=
  ["typ", "cty", "jku", "kid", "x5u", "x5t", "x5t#S256", "url", "nonce", "enc", "zip"]

def lists : List String := ["crit", "x5c"]

def known : List String := "alg" :: "jwk" :: texts ++ lists

/-- Whether a name of some names is repeated in an object. -/
def repeats (names : List String) (members : Json.Members) : Bool :=
  names.any fun name => 1 < (members.filter (·.1 == name)).length

/-- Whether a value is null or accepted by a test. -/
def nullOr (accepts : Json → Bool) : Json → Bool
  | .null => true
  | v => accepts v

/-- Whether a value is a published key, no member of which is repeated. -/
def isKey (v : Json) : Bool :=
  Jwk.isForm v && match v.object? with
    | some members => !repeats (members.map Prod.fst) members
    | none => false

def acceptsMember (member : String × Json) : Bool :=
  let (name, v) := member
  if name == "alg" then Jwk.isText v
  else if name == "jwk" then nullOr isKey v
  else if texts.contains name then nullOr Jwk.isText v
  else if lists.contains name then nullOr Jwk.isTexts v
  else Jwk.isText v

def accepts (document : Json) : Bool :=
  match document.object? with
  | some members => !repeats known members && members.all acceptsMember
  | none => false

end BearerAuth.HeaderForm

import BearerAuth.Error
import BearerAuth.Text.Basic

namespace BearerAuth

namespace ChallengeHeader

def scheme : String := "Bearer"

def name : String := "WWW-Authenticate"

def isParameterChar (c : Char) : Bool := c.isAlphanum || "-_.,;/'=+ ".toList.contains c

def isHeaderChar (c : Char) : Bool := c == '"' || isParameterChar c

/-- The part of a text that a parameter may hold. -/
def sanitiseParameter (s : String) : String := String.ofList (s.toList.filter isParameterChar)

/-- The part of a text that a header may hold. -/
def sanitiseHeader (s : String) : String := String.ofList (s.toList.filter isHeaderChar)

/-- A further parameter, unless its value is blank. -/
def parameter (name value : String) : String :=
  let value := sanitiseParameter value
  if Text.isBlank value then "" else s!", {name}=\"{value}\""

def text (realm error description : String) : String :=
  sanitiseHeader
    (s!"{scheme} realm=\"{sanitiseParameter realm}\"" ++
      (parameter "error" error ++ parameter "error_description" description))

end ChallengeHeader

/-- Why a request is not authenticated. -/
structure Challenge where
  status : Nat
  error : String
  description : String
deriving DecidableEq, Repr

namespace Challenge

def noCredentials : Challenge := ⟨401, "", ""⟩

def invalidRequest (description : String) : Challenge := ⟨400, "invalid_request", description⟩

def invalidToken (description : String) : Challenge := ⟨401, "invalid_token", description⟩

def noToken : Challenge := invalidRequest "No Bearer token(s) provided"

/-- A verified token does not say who the user is. -/
def noUsername : Challenge := invalidToken "Failed to find a username for the user"

def ofError : VerificationError → Challenge
  | .key e => invalidToken ("Invalid/weak key: " ++ e.message)
  | .signature m => invalidToken ("Token failed signature verification: " ++ m)
  | .malformed m => invalidToken ("Token is malformed: " ++ m)
  | .unsupported m => invalidRequest ("Token uses an unsupported JWT feature: " ++ m)
  | .expired m => invalidToken ("Token expired: " ++ m)
  | .premature _ => invalidToken "Token is not yet valid, are server clocks out of sync?"
  | .invalidClaim m => invalidToken m
  | .other m => invalidToken ("Token verification failed: " ++ m)

def header (c : Challenge) (realm : String) : String :=
  ChallengeHeader.text realm c.error c.description

end Challenge

end BearerAuth

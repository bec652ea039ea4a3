import BearerAuth.Base64
import BearerAuth.Crypto.Hash
import BearerAuth.Error
import BearerAuth.Json.Parser
import BearerAuth.Token.Algorithm
import BearerAuth.Text.Basic

namespace BearerAuth

/-- A token taken apart. The document of the header keeps repeated members. -/
structure ParsedToken where
  header : KeyHeader
  document : Json
  signedText : String
  payload : String
  signature : String
  padded : Bool

namespace ParsedToken

/-- The bytes of a segment, padded or not. -/
def segmentBytes (segment : String) : Except Base64.DecodeError (List UInt8) :=
  Base64.decode .urlSafe .indifferent (Text.Utf8.encode segment)

def segments (raw : String) : Except VerificationError (String × String × String) :=
  match Text.split '.' raw with
  | [header, payload, signature] => .ok (header, payload, signature)
  | [_, _, _, _, _] => .error (.unsupported "encrypted JWTs (JWE) are not supported")
  | parts =>
    .error (.malformed s!"expected 3 dot separated segments but found {parts.length}")

def readDocument (segment : String) : Except VerificationError Json := do
  let bytes ← (segmentBytes segment).mapError fun e =>
    VerificationError.malformed s!"header is not valid base64url: {e.message}"
  (Json.documentOfBytes bytes).mapError fun e =>
    VerificationError.malformed s!"header is not valid JSON: {e.message}"

def readAlgorithm (header : Json) : Except VerificationError Algorithm :=
  match (header.member? "alg").bind Json.string? with
  | none => .error (.malformed "header does not declare an alg")
  | some name =>
    if Text.equalsIgnoringCase name "none" then
      .error (.unsupported "unsigned JWTs are not supported")
    else
      match Algorithm.ofName? name with
      | some algorithm => .ok algorithm
      | none => .error (.unsupported s!"unrecognised signature algorithm '{name}'")

def parse (allowPadding : Bool) (raw : String) : Except VerificationError ParsedToken := do
  let (header, payload, signature) ← segments raw
  let padded := raw.contains '='
  if padded && !allowPadding then
    throw (.malformed "token segments must not contain base64 padding")
  let document ← readDocument header
  let members := document.canonical
  let algorithm ← readAlgorithm members
  if signature.isEmpty then
    throw (.malformed "signed JWT has no signature")
  return {
    header := ⟨(members.member? "kid").bind Json.string?, algorithm⟩
    document, payload, signature, padded
    signedText := s!"{header}.{payload}" }

end ParsedToken

namespace Token

def segment (padded : Bool) (bytes : List UInt8) : String :=
  Base64.encodeText .urlSafe padded bytes

/-- What is signed of a token with a header and a payload. -/
def signedText (padded : Bool) (header payload : String) : String :=
  segment padded (Text.Utf8.encode header) ++ "." ++ segment padded (Text.Utf8.encode payload)

/-- The token with a header and a payload, signed with a secret by the digest of an algorithm. -/
def mint (algorithm : Algorithm) (secret : List UInt8) (padded : Bool) (header payload : String) :
    String :=
  let signed := signedText padded header payload
  let signature := Crypto.hmac algorithm.hash secret (Text.Utf8.encode signed)
  signed ++ "." ++ segment padded signature

end Token

end BearerAuth

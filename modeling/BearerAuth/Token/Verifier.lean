import BearerAuth.Key.Locator
import BearerAuth.Token.HeaderForm
import BearerAuth.Token.Parsed
import BearerAuth.Token.RegisteredClaims

namespace BearerAuth

/-- What a deployment demands of signed tokens. The clock skew is in seconds. -/
structure SignedVerifier where
  locator : KeyLocator
  clockSkew : Nat := 0
  issuer : Option String := none
  audience : Option String := none
  allowPadding : Bool := false

namespace SignedVerifier

/-- The greatest clock skew that is allowed for: one day. -/
def maxClockSkew : Nat := 86400

def withClockSkew (v : SignedVerifier) (seconds : Nat) : SignedVerifier :=
  { v with clockSkew := min seconds maxClockSkew }

/-- The verifier of tokens that the load balancers of a region sign. -/
def ofLoadBalancer (region : String) : Except KeyError SignedVerifier := do
  return { locator := .loadBalancer (← LoadBalancerKeys.ofRegion region), allowPadding := true }

/-- The verification error of a signature that cannot be checked. -/
def ofSignatureError : SignatureError → VerificationError
  | .keyFamily => .key (.invalidKey "key cannot verify this token: InvalidKeyFormat")
  | .ecPoint => .key (.invalidKey "key cannot verify this token: InvalidEcdsaKey")
  | .edPoint => .other "InvalidEddsaKey"
  | .encoding e => .malformed s!"Base64 error: {e.message}"

/-- The error of a document whose form is wrong, with what the reader says of it. -/
def formError (message : String) : VerificationError := .malformed s!"JSON error: {message}"

/-- Checks that a signature of the token's text was made with a key. -/
def checkSignature (token : ParsedToken) (key : KeyMaterial) (signature : String) :
    Attempt VerificationError Unit := do
  let verdict := key.verifies token.header.algorithm token.signedText signature
  if ← verdict.mapError ofSignatureError then
    return ()
  else
    .error (.signature "JWT signature does not match locally computed signature")

/-- The claims of a document, which is an object. -/
def claimsOf (document : Json) : Except VerificationError Claims :=
  match Claims.ofJson? document.canonical with
  | some claims => .ok claims
  | none => .error (.malformed "payload is not a JSON object")

/-- Reads and judges the payload of a token without padding. -/
def readPayload (messages : Json.FormMessages) (e : Expectation) (payload : String) :
    Except VerificationError Claims := do
  let bytes ← (Base64.decode .urlSafe .absent (Text.Utf8.encode payload)).mapError fun e =>
    VerificationError.malformed s!"Base64 error: {e.message}"
  let document ← (Json.documentOfBytes bytes).mapError fun e =>
    VerificationError.malformed s!"JSON error: {e.message}"
  match RegisteredClaims.ofPayload? document with
  | none => throw (formError (messages.payload bytes))
  | some registered =>
    registered.judge e
    claimsOf document

def readPaddedPayload (e : Expectation) (payload : String) : Except VerificationError Claims := do
  let bytes ← (ParsedToken.segmentBytes payload).mapError fun e =>
    VerificationError.malformed s!"payload is not valid base64url: {e.message}"
  let document ← (Json.documentOfBytes bytes).mapError fun e =>
    VerificationError.malformed s!"payload is not valid JSON: {e.message}"
  let claims ← claimsOf document
  e.judgeClaims claims
  return claims

def withoutPadding (signature : String) : String :=
  String.ofList (Text.dropEndWhile (· == '=') signature.toList)

def accept (messages : Json.FormMessages) (e : Expectation) (token : ParsedToken)
    (key : KeyMaterial) : Attempt VerificationError Claims :=
  if token.padded then do
    checkSignature token key (withoutPadding token.signature)
    Attempt.ofExcept (readPaddedPayload e token.payload)
  else if HeaderForm.accepts token.document then do
    checkSignature token key token.signature
    Attempt.ofExcept (readPayload messages e token.payload)
  else
    .error (formError (messages.header (Text.Utf8.encode token.signedText)))

def expectation (v : SignedVerifier) (now : Int) : Expectation :=
  ⟨now, v.clockSkew, v.issuer, v.audience⟩

/-- The claims of a token, if it is good. -/
def verify (v : SignedVerifier) (raw : String) :
    Run (Attempt VerificationError Claims × SignedVerifier) :=
  match ParsedToken.parse v.allowPadding raw with
  | .error e => pure (.error e, v)
  | .ok token => do
    let (found, locator) ← v.locator.locate token.header
    let v := { v with locator }
    match found with
    | .error e => return (.error (.key e), v)
    | .ok key =>
      let w ← Run.surroundings
      return (accept w.formMessages (v.expectation w.now) token key, v)

def text (v : SignedVerifier) : String :=
  s!"SignedJwtVerifier\x7bverificationMethod={v.locator.text}, clockSkew={v.clockSkew}s\x7d"

end SignedVerifier

/-- What turns tokens into claims: a verifier of signed tokens, or a named one of any kind, whose
answer may depend on how often it was asked before. -/
inductive Verifier where
  | signed (v : SignedVerifier)
  | custom (name : String) (asked : Nat)
      (answer : Nat → String → Attempt VerificationError Claims)

namespace Verifier

/-- The claims of a token, if it is good, and the verifier with what it has learned. -/
def verify (v : Verifier) (raw : String) : Run (Attempt VerificationError Claims × Verifier) :=
  match v with
  | .signed v => do
    let (result, v) ← v.verify raw
    return (result, .signed v)
  | .custom name asked answer => return (answer asked raw, .custom name (asked + 1) answer)

def text : Verifier → String
  | .signed v => v.text
  | .custom name _ _ => name

end Verifier

end BearerAuth

import BearerAuth.Claims
import BearerAuth.Error

/-!
The claims with a registered meaning, and what a deployment expects of them: `exp` and `nbf` bound
the time at which a token is good, `iss` and `aud` say whom it comes from and whom it is for. They
are judged in two ways: the one looks at the payload as it was written, the other at the claims as
numbers and texts.
-/

namespace BearerAuth

/-- What is expected of the claims at a time. -/
structure Expectation where
  now : Int
  leeway : Nat
  issuer : Option String
  audience : Option String
deriving DecidableEq, Repr

namespace Expectation

def expired : VerificationError := .expired "the token's exp claim is in the past"

def premature : VerificationError := .premature "the token's nbf claim is in the future"

def wrongIssuer : VerificationError :=
  .invalidClaim "Token issuer does not match the expected issuer"

def wrongAudience : VerificationError :=
  .invalidClaim "Token audience does not include the expected audience"

/-- The texts of a claim that is a text or a list of texts. -/
def texts? : Json → Option (List String)
  | .string s => some [s]
  | .array items => items.mapM Json.string?
  | _ => none

def mentions (text : String) : Json → Bool
  | .string s => s == text
  | .array items => items.any fun v => v.string? == some text
  | _ => false

/-- The whole number of a claim: none if the claim is absent or null, an error if it is no
number. -/
def wholeNumber (claims : Claims) (name : String) : Except VerificationError (Option Int) :=
  match claims.get? name with
  | none => .ok none
  | some .null => .ok none
  | some (.number n) =>
    match n.toDouble? with
    | some x => .ok (some x.toInt64)
    | none => .error (.malformed s!"{name} claim is not numeric")
  | some _ => .error (.malformed s!"{name} claim is not numeric")

/-- Judges claims. An expected issuer or audience has to be there. -/
def judgeClaims (e : Expectation) (claims : Claims) : Except VerificationError Unit := do
  if let some exp ← wholeNumber claims "exp" then
    if exp < e.now - e.leeway then
      throw expired
  if let some nbf ← wholeNumber claims "nbf" then
    if e.now + e.leeway < nbf then
      throw premature
  if let some issuer := e.issuer then
    if (claims.get? "iss").bind Json.string? != some issuer then
      throw wrongIssuer
  if let some audience := e.audience then
    if !(claims.get? "aud").any (mentions audience) then
      throw wrongAudience

end Expectation

/-- A time in a payload: absent, a number of seconds, or no such number. -/
inductive ClaimedTime where
  | absent
  | seconds (n : Nat)
  | unreadable
deriving DecidableEq, Repr

namespace ClaimedTime

/-- The time of a value. A fraction is rounded; what is negative or takes more than 64 bits is
unreadable. -/
def ofJson : Json → ClaimedTime
  | .number (.int i) => if 0 ≤ i && i < 0x10000000000000000 then .seconds i.toNat else .unreadable
  | .number (.double x) =>
    let n := x.roundAbs
    if (x.negative && x.mantissa != 0) || 0x10000000000000000 ≤ n then .unreadable else .seconds n
  | _ => .unreadable

end ClaimedTime

/-- The registered claims of a payload as it was written. -/
structure RegisteredClaims where
  exp : ClaimedTime
  nbf : ClaimedTime
  iss : Option Json
  aud : Option Json
deriving Repr

namespace RegisteredClaims

def names : List String := ["exp", "nbf", "sub", "iss", "aud"]

/-- Whether a value cannot stand where a number is looked for: it has items. -/
def hasItems : Json → Bool
  | .array (_ :: _) => true
  | .object (_ :: _) => true
  | _ => false

/-- Whether a value cannot stand where a text is looked for: it has items or could have them. -/
def isCompound : Json → Bool
  | .array _ => true
  | .object _ => true
  | _ => false

/-- The registered claims of five values that may be absent. -/
def ofValues? (exp nbf sub iss aud : Option Json) : Option RegisteredClaims :=
  if exp.any hasItems || nbf.any hasItems || sub.any isCompound then none
  else
    let time (v : Option Json) : ClaimedTime := (v.map ClaimedTime.ofJson).getD .absent
    some ⟨time exp, time nbf, iss, aud⟩

/-- The registered claims of a payload: an object in which none of them is repeated, or a list of
the five values. -/
def ofPayload? : Json → Option RegisteredClaims
  | .object members =>
    if names.any fun name => 1 < (members.filter (·.1 == name)).length then none
    else
      let value (name : String) : Option Json := members.lookup name
      ofValues? (value "exp") (value "nbf") (value "sub") (value "iss") (value "aud")
  | .array [exp, nbf, sub, iss, aud] =>
    ofValues? (some exp) (some nbf) (some sub) (some iss) (some aud)
  | _ => none

/-- A claim that is neither a text nor a list of texts passes, and so does one that is not there;
any other has to contain the expected text. -/
def passes (expected : Option String) (claim : Option Json) : Bool :=
  match expected, claim.bind Expectation.texts? with
  | some text, some texts => texts.contains text
  | _, _ => true

def judge (c : RegisteredClaims) (e : Expectation) : Except VerificationError Unit := do
  if c.exp = .unreadable then
    throw (.other "Invalid format for claim: exp")
  if c.nbf = .unreadable then
    throw (.other "Invalid format for claim: nbf")
  if let .seconds exp := c.exp then
    if (exp : Int) < e.now - e.leeway then
      throw Expectation.expired
  if let .seconds nbf := c.nbf then
    if e.now + e.leeway < nbf then
      throw Expectation.premature
  if !passes e.issuer c.iss then
    throw Expectation.wrongIssuer
  if !passes e.audience c.aud then
    throw Expectation.wrongAudience

end RegisteredClaims

end BearerAuth

import BearerAuth.Json.Basic
import BearerAuth.Key.Material
import BearerAuth.Text.Bytes

namespace BearerAuth

/-- A key with the identifier it is published under. -/
structure Jwk where
  keyId : Option String
  material : KeyMaterial
deriving DecidableEq, Repr

namespace Jwk

/-- Whether a member is absent, null, or accepted by a test. -/
def isOptional (v : Json) (name : String) (accepts : Json → Bool) : Bool :=
  match v.member? name with
  | none => true
  | some .null => true
  | some m => accepts m

def isText (v : Json) : Bool := v.string?.isSome

def isTexts (v : Json) : Bool :=
  match v.array? with
  | some items => items.all isText
  | none => false

/-- Whether the members that any key may have are of their types. -/
def hasCommonForm (v : Json) : Bool :=
  ["use", "alg", "kid", "x5u", "x5t", "x5t#S256"].all (isOptional v · isText) &&
    ["key_ops", "x5c"].all (isOptional v · isTexts)

def text? (v : Json) (name : String) : Option String := (v.member? name).bind Json.string?

def curves : List String := ["P-256", "P-384", "P-521", "Ed25519"]

/-- The bytes of a member in URL-safe base64 without padding. -/
def bytes? (s : String) : Option (List UInt8) :=
  (Base64.decode .urlSafe .absent (Text.Utf8.encode s)).toOption

/-- The parameters of a key, before they are decoded. -/
inductive Parameters where
  | ec (x y : String)
  | rsa (n e : String)
  | oct (k : String)
  | okp (x : String)

/-- The parameters of the first kind whose members are there. -/
def parameters? (v : Json) : Option Parameters := do
  let kty ← text? v "kty"
  let curve? := (text? v "crv").filter (curves.contains ·)
  match kty with
  | "EC" => if curve?.isSome then return .ec (← text? v "x") (← text? v "y") else none
  | "RSA" => return .rsa (← text? v "n") (← text? v "e")
  | "oct" => return .oct (← text? v "k")
  | "OKP" => if curve?.isSome then return .okp (← text? v "x") else none
  | _ => none

def Parameters.material? : Parameters → Option KeyMaterial
  | .ec x y => do return .ecPoint (0x04 :: (← bytes? x) ++ (← bytes? y))
  | .rsa n e => do return .rsaNumbers (← bytes? n) (← bytes? e)
  | .oct k => do return .secret (← bytes? k)
  | .okp x => do return .edPoint (← bytes? x)

/-- Whether a value has the form of a key, whatever its parameters decode to. -/
def isForm (v : Json) : Bool := v.object?.isSome && hasCommonForm v && (parameters? v).isSome

/-- The key of a value, if it is a usable one. -/
def ofJson? (v : Json) : Option Jwk := do
  if !isForm v then
    none
  let parameters ← parameters? v
  return ⟨text? v "kid", ← parameters.material?⟩

end Jwk

end BearerAuth

import BearerAuth.Attempt
import BearerAuth.Base64
import BearerAuth.Crypto.Ecdsa
import BearerAuth.Crypto.Ed25519
import BearerAuth.Crypto.Hash
import BearerAuth.Crypto.Rsa
import BearerAuth.Encoding.Der
import BearerAuth.Encoding.Pem
import BearerAuth.Text.Bytes
import BearerAuth.Token.Algorithm

/-!
Key material and the check of a signature with it. Material is held as it was given and only
understood when a signature is checked, so a key that no signature can match is still a key.
-/

namespace BearerAuth

/-- Key material of one of the four kinds. -/
inductive KeyMaterial where
  | secret (bytes : List UInt8)
  | rsaEncoded (bytes : List UInt8)
  | rsaNumbers (n e : List UInt8)
  | ecPoint (bytes : List UInt8)
  | edPoint (bytes : List UInt8)
deriving DecidableEq, Repr

namespace KeyMaterial

def family : KeyMaterial → KeyFamily
  | .secret _ => .hmac
  | .rsaEncoded _ => .rsa
  | .rsaNumbers _ _ => .rsa
  | .ecPoint _ => .ec
  | .edPoint _ => .ed

/-- The numbers of an RSA key, if its encoding is one. -/
def rsaKey? : KeyMaterial → Option Crypto.Rsa.PublicKey
  | .rsaEncoded bytes => (Encoding.Der.strictNatPair? bytes).map fun (n, e) => ⟨n, e⟩
  | .rsaNumbers n e => some ⟨Crypto.natOfBytes n, Crypto.natOfBytes e⟩
  | _ => none

end KeyMaterial

/-- Why a signature cannot be checked. -/
inductive SignatureError where
  | keyFamily
  | ecPoint
  | edPoint
  | encoding (e : Base64.DecodeError)
deriving DecidableEq, Repr

/-- A key that is understood: the check of a signature's bytes under it. -/
abbrev SignatureCheck := (message signature : List UInt8) → Bool

/-- The curve that an algorithm of the elliptic curve family signs on. -/
def Algorithm.curve : Algorithm → Crypto.Curve
  | .es384 => .p384
  | _ => .p256

/-- The check of one algorithm under a key of its kind. A point that is not on the curve is
refused; an Ed25519 key has 32 bytes at least, of which the first 32 count. -/
def KeyMaterial.check (key : KeyMaterial) (alg : Algorithm) :
    Attempt SignatureError SignatureCheck :=
  match alg.family, key with
  | .hmac, .secret bytes =>
    .ok fun message signature => Crypto.hmac alg.hash bytes message == signature
  | .rsa, .rsaEncoded _ | .rsa, .rsaNumbers _ _ =>
    .ok fun message signature =>
      match key.rsaKey? with
      | none => false
      | some k =>
        match alg with
        | .ps256 | .ps384 | .ps512 => Crypto.Rsa.verifyPss alg.hash k message signature
        | _ => Crypto.Rsa.verifyPkcs1 alg.hash k message signature
  | .ec, .ecPoint bytes =>
    match alg.curve.decodePoint? bytes with
    | none => .error .ecPoint
    | some point => .ok (Crypto.verifyEcdsa alg.hash alg.curve point)
  | .ed, .edPoint bytes =>
    if bytes.length < 32 then
      .panic (.text s!"range end index 32 out of range for slice of length {bytes.length}")
    else
      let keyBytes := bytes.take 32
      match Crypto.Ed25519.decodePoint? keyBytes with
      | none => .error .edPoint
      | some point => .ok (Crypto.Ed25519.verify keyBytes point)
  | _, _ => .error .keyFamily

/-- Checks a signature, written in URL-safe base64 without padding, over a text. -/
def KeyMaterial.verifies (key : KeyMaterial) (alg : Algorithm) (message signature : String) :
    Attempt SignatureError Bool := do
  let check ← key.check alg
  match Base64.decode .urlSafe .absent (Text.Utf8.encode signature) with
  | .error e => .error (.encoding e)
  | .ok bytes => .ok (check (Text.Utf8.encode message) bytes)

end BearerAuth

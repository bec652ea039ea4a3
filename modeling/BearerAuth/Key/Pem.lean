import BearerAuth.Crypto.Hash
import BearerAuth.Error
import BearerAuth.Key.Material
import BearerAuth.Text.Basic
import BearerAuth.Text.Bytes

namespace BearerAuth

/-- The kinds of public key that a PEM file is asked for. -/
inductive PublicKeyKind where
  | rsa
  | ec
  | ed25519
deriving DecidableEq, Repr

namespace PublicKeyKind

/-- The kind of a configured name, in any letter case. -/
def ofName? (s : String) : Option PublicKeyKind :=
  match Text.asciiUpper (Text.trim s) with
  | "RSA" => some .rsa
  | "EC" | "ECDSA" => some .ec
  | "ED25519" | "EDDSA" => some .ed25519
  | _ => none

def name : PublicKeyKind → String
  | .rsa => "RSA"
  | .ec => "EC"
  | .ed25519 => "Ed25519"

end PublicKeyKind

namespace PemKey

/-- Why a PEM text holds no key of the kind asked for. -/
inductive Refusal where
  | format
  | noString
deriving DecidableEq, Repr

def Refusal.message : Refusal → String
  | .format => "InvalidKeyFormat"
  | .noString => "InvalidEcdsaKey"

/-- The kind of key that an object identifier stands for. -/
def kindOfIdentifier? (arcs : List Nat) : Option PublicKeyKind :=
  if arcs = [1, 2, 840, 10045, 2, 1] then some .ec
  else if arcs = [1, 2, 840, 113549, 1, 1, 1] then some .rsa
  else if arcs = [1, 3, 101, 112] then some .ed25519
  else none

def keyString (blocks : List Encoding.Der.Block) : Except Refusal (List UInt8) :=
  match Encoding.Der.firstString? blocks with
  | some bytes => .ok bytes
  | none => .error .noString

/-- The material of the key of a kind in a PEM text. A text labelled as an RSA key is taken as it
is; the other labels are told apart by the identifiers inside, and only an RSA key may be a
private one. -/
def material (kind : PublicKeyKind) (pem : List UInt8) : Except Refusal KeyMaterial := do
  let some labelled := Encoding.Pem.read? pem | throw .format
  let some blocks := Encoding.Der.read? labelled.bytes | throw .format
  match labelled.label with
  | "RSA PRIVATE KEY" | "RSA PUBLIC KEY" =>
    match kind with
    | .rsa => return .rsaEncoded labelled.bytes
    | _ => throw .format
  | "PRIVATE KEY" | "PUBLIC KEY" | "CERTIFICATE" =>
    let some found := Encoding.Der.findIdentifier? kindOfIdentifier? blocks | throw .format
    let isPrivate := labelled.label == "PRIVATE KEY"
    match kind, found with
    | .rsa, .rsa => return .rsaEncoded (← keyString blocks)
    | .ec, .ec =>
      if isPrivate then throw .format
      return .ecPoint (← keyString blocks)
    | .ed25519, .ed25519 =>
      if isPrivate then throw .format
      return .edPoint (← keyString blocks)
    | _, _ => throw .format
  | _ => throw .format

/-- What identifies a key file: the digest of its bytes. -/
def fingerprint (pem : List UInt8) : String := Text.Hex.encode (Crypto.Hash.sha256.digest pem)

end PemKey

end BearerAuth

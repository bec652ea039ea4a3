import BearerAuth.Crypto.Hash
import BearerAuth.Error
import BearerAuth.Text.Basic

namespace BearerAuth

/-- The supported signature algorithms. -/
inductive Algorithm where
  | hs256
  | hs384
  | hs512
  | rs256
  | rs384
  | rs512
  | ps256
  | ps384
  | ps512
  | es256
  | es384
  | edDsa
deriving DecidableEq, Repr

/-- The kinds of key; each algorithm demands one. -/
inductive KeyFamily where
  | hmac
  | rsa
  | ec
  | ed
deriving DecidableEq, Repr

namespace Algorithm

def all : List Algorithm :=
  [.hs256, .hs384, .hs512, .rs256, .rs384, .rs512, .ps256, .ps384, .ps512, .es256, .es384, .edDsa]

def name : Algorithm → String
  | .hs256 => "HS256"
  | .hs384 => "HS384"
  | .hs512 => "HS512"
  | .rs256 => "RS256"
  | .rs384 => "RS384"
  | .rs512 => "RS512"
  | .ps256 => "PS256"
  | .ps384 => "PS384"
  | .ps512 => "PS512"
  | .es256 => "ES256"
  | .es384 => "ES384"
  | .edDsa => "EdDSA"

/-- The algorithm of a name; letter case counts. -/
def ofName? (s : String) : Option Algorithm := all.find? fun a => a.name == s

def family : Algorithm → KeyFamily
  | .hs256 | .hs384 | .hs512 => .hmac
  | .rs256 | .rs384 | .rs512 | .ps256 | .ps384 | .ps512 => .rsa
  | .es256 | .es384 => .ec
  | .edDsa => .ed

def hash : Algorithm → Crypto.Hash
  | .hs256 | .rs256 | .ps256 | .es256 => .sha256
  | .hs384 | .rs384 | .ps384 | .es384 => .sha384
  | .hs512 | .rs512 | .ps512 | .edDsa => .sha512

/-- The least number of bits of a secret, for the algorithms that take one: those of the digest. -/
def requiredSecretBits? : Algorithm → Option Nat
  | .hs256 => some 256
  | .hs384 => some 384
  | .hs512 => some 512
  | _ => none

theorem ofName?_name (a : Algorithm) : ofName? a.name = some a := by
  cases a <;> decide

end Algorithm

/-- The identifier of a key and the algorithm that it is used with. -/
structure KeyHeader where
  keyId : Option String
  algorithm : Algorithm
deriving DecidableEq, Repr

/-- The trimmed identifier of the key; one has to be there. -/
def KeyHeader.requireKeyId (h : KeyHeader) : Except KeyError String :=
  match h.keyId.bind Text.nonBlank? with
  | some id => .ok id
  | none => .error .missingKeyId

end BearerAuth

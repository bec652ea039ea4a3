import BearerAuth.Token.Algorithm
import BearerAuth.Key.Pem
import BearerAuth.Surroundings.FileSystem

namespace BearerAuth

/-- A secret, or a public key with its kind and the digest of its PEM text. -/
inductive DirectKey where
  | secret (bytes : List UInt8)
  | pem (kind : PublicKeyKind) (material : KeyMaterial) (fingerprint : String)
deriving DecidableEq, Repr

namespace DirectKey

def bits? : DirectKey → Option Nat
  | .secret bytes => some (bytes.length * 8)
  | .pem .. => none

def material : DirectKey → KeyMaterial
  | .secret bytes => .secret bytes
  | .pem _ material _ => material

def ofPem (pem : List UInt8) (kind : PublicKeyKind) : Except KeyError DirectKey :=
  match PemKey.material kind pem with
  | .ok material => .ok (.pem kind material (PemKey.fingerprint pem))
  | .error e => .error (.invalidKey s!"Failed to parse {kind.name} public key: {e.message}")

/-- The secret in the content of a file: what the trimmed text stands for in base64 if it is base64
of anything, else the content itself. -/
def secretOfContent (content : List UInt8) : List UInt8 :=
  let text := Text.trim (Text.Utf8.decodeLossy content)
  match Base64.decode .standard .canonical (Text.Utf8.encode text) with
  | .ok (b :: bytes) => b :: bytes
  | _ => content

def readFile (files : FileSystem) (path : String) : Except KeyError (List UInt8) :=
  (files.read path).mapError fun e => .fetch path e.message

def loadSecret (files : FileSystem) (path : String) : Except KeyError DirectKey := do
  return .secret (secretOfContent (← readFile files path))

def loadPublic (files : FileSystem) (path : String) (kind : PublicKeyKind) :
    Except KeyError DirectKey := do
  ofPem (← readFile files path) kind

/-- The material for a token. A secret has to be long enough for the token's algorithm. -/
def locate (key : DirectKey) (header : KeyHeader) : Except KeyError KeyMaterial :=
  match key.bits?, header.algorithm.requiredSecretBits? with
  | some bits, some required =>
    if bits < required then .error (.weakKey bits required) else .ok key.material
  | _, _ => .ok key.material

/-- The text of a key, which does not give a secret away. -/
def text : DirectKey → String
  | .secret _ => "SecretKey"
  | .pem kind _ fingerprint =>
    s!"PublicKey\x7balgorithm={kind.name}, fingerprint={fingerprint}\x7d"

end DirectKey

end BearerAuth

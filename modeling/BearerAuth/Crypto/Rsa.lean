import BearerAuth.Crypto.Arithmetic
import BearerAuth.Crypto.Hash

namespace BearerAuth.Crypto.Rsa

/-- A public key. -/
structure PublicKey where
  modulus : Nat
  exponent : Nat
deriving DecidableEq, Repr

def PublicKey.size (k : PublicKey) : Nat := (bitLength k.modulus + 7) / 8

/-- A key that is used at all: an odd modulus of at most 4096 bits above the exponent, and an odd
exponent from 2 to `2 ^ 33 - 1`. -/
def PublicKey.isUsable (k : PublicKey) : Bool :=
  bitLength k.modulus ≤ 4096 && k.exponent < k.modulus && k.modulus % 2 == 1 &&
    k.exponent % 2 == 1 && 2 ≤ k.exponent && k.exponent < 0x200000000

/-- The encoded message that a signature stands for, at the length of the modulus. -/
def PublicKey.recover (k : PublicKey) (signature : List UInt8) : Option (List UInt8) :=
  let s := natOfBytes signature
  if k.isUsable && signature.length == k.size && s < k.modulus then
    some (bytesOfNat k.size (powMod s k.exponent k.modulus))
  else
    none

/-- The encoding of a hash function's name that precedes the digest. -/
def digestInfo : Hash → List UInt8
  | .sha256 => [0x30, 0x31, 0x30, 0x0d, 0x06, 0x09, 0x60, 0x86, 0x48, 0x01, 0x65, 0x03, 0x04, 0x02,
      0x01, 0x05, 0x00, 0x04, 0x20]
  | .sha384 => [0x30, 0x41, 0x30, 0x0d, 0x06, 0x09, 0x60, 0x86, 0x48, 0x01, 0x65, 0x03, 0x04, 0x02,
      0x02, 0x05, 0x00, 0x04, 0x30]
  | .sha512 => [0x30, 0x51, 0x30, 0x0d, 0x06, 0x09, 0x60, 0x86, 0x48, 0x01, 0x65, 0x03, 0x04, 0x02,
      0x03, 0x05, 0x00, 0x04, 0x40]

def verifyPkcs1 (h : Hash) (k : PublicKey) (message signature : List UInt8) : Bool :=
  let t := digestInfo h ++ h.digest message
  match k.recover signature with
  | none => false
  | some em =>
    t.length + 11 ≤ k.size &&
      em == 0x00 :: 0x01 :: (List.replicate (k.size - t.length - 3) 0xff ++ 0x00 :: t)

/-- The mask of a seed: the digests of the seed with a counter. -/
def mask (h : Hash) (seed : List UInt8) (length : Nat) : List UInt8 :=
  let count := (length + h.size - 1) / h.size
  ((List.range count).flatMap fun i => h.digest (seed ++ bytesOfNat 4 i)).take length

def clearBits (bits : Nat) : List UInt8 → List UInt8
  | [] => []
  | b :: rest => UInt8.ofNat (b.toNat % (1 <<< (8 - bits))) :: rest

/-- Checks an encoded message of the probabilistic scheme, `bits` bits long. -/
def checkPss (h : Hash) (message em : List UInt8) (bits : Nat) : Bool :=
  let length := (bits + 7) / 8
  let digestLength := h.size
  let saltLength := h.size
  if length < digestLength + saltLength + 2 then false
  else
    let masked := em.take (length - digestLength - 1)
    let digest := (em.drop (length - digestLength - 1)).take digestLength
    let free := 8 * length - bits
    let db := clearBits free (List.zipWith (· ^^^ ·) masked (mask h digest masked.length))
    let zeros := length - digestLength - saltLength - 2
    let salt := db.drop (zeros + 1)
    em.getLast? == some 0xbc && clearBits free masked == masked &&
      (db.take zeros).all (· == 0) && db[zeros]? == some 1 &&
      h.digest (List.replicate 8 0 ++ h.digest message ++ salt) == digest

def verifyPss (h : Hash) (k : PublicKey) (message signature : List UInt8) : Bool :=
  match k.recover signature with
  | none => false
  | some em =>
    let bits := bitLength k.modulus - 1
    let extra := k.size - (bits + 7) / 8
    (em.take extra).all (· == 0) && checkPss h message (em.drop extra) bits

end BearerAuth.Crypto.Rsa

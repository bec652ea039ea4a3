import BearerAuth.Crypto.Arithmetic
import BearerAuth.Crypto.Hash

namespace BearerAuth.Crypto.Ed25519

/-- The modulus of the coordinates, `2 ^ 255 - 19`. -/
def prime : Nat := 0x7fffffffffffffffffffffffffffffffffffffffffffffffffffffffffffffed

def order : Nat := 0x1000000000000000000000000000000014def9dea2f79cd65812631a5cf5d3ed

/-- The constant `d = -121665 / 121666`. -/
def d : Nat := (prime - 121665) * invMod 121666 prime % prime

/-- A point of the curve; every pair that arises satisfies the equation. -/
structure Point where
  x : Nat
  y : Nat
deriving DecidableEq, Repr

def Point.zero : Point := ⟨0, 1⟩

/-- The sum of two points; the law has no exceptions. -/
def Point.add (p q : Point) : Point :=
  let m := prime
  let t := d * (p.x * q.x % m) % m * (p.y * q.y % m) % m
  ⟨(p.x * q.y + p.y * q.x) % m * invMod (1 + t) m % m,
    (p.y * q.y + p.x * q.x) % m * invMod (1 + (m - t)) m % m⟩

def Point.neg (p : Point) : Point := ⟨(prime - p.x) % prime, p.y⟩

def Point.multiple (n : Nat) (p : Point) : Point :=
  if n = 0 then .zero
  else
    let half := multiple (n / 2) (p.add p)
    if n % 2 = 1 then p.add half else half
termination_by n
decreasing_by omega

/-- The first coordinate of the points of a second coordinate, of the parity asked for where there
are two. -/
def xOfY? (y sign : Nat) : Option Nat :=
  let yy := y * y % prime
  let w := (yy + (prime - 1)) % prime * invMod ((d * yy + 1) % prime) prime % prime
  let r := powMod w ((prime + 3) / 8) prime
  let x := if r * r % prime = w then r else r * powMod 2 ((prime - 1) / 4) prime % prime
  if x * x % prime = w then
    some (if x % 2 = sign then x else (prime - x) % prime)
  else none

/-- The base point: the even point at `4 / 5`. -/
def base : Point :=
  let y := 4 * invMod 5 prime % prime
  ⟨(xOfY? y 0).getD 0, y⟩

/-- The point of 32 bytes: the second coordinate, and the parity of the first in the last bit. -/
def decodePoint? (bytes : List UInt8) : Option Point :=
  let n := natOfBytesLE bytes
  let y := n % (1 <<< 255) % prime
  (xOfY? y (n >>> 255)).map fun x => ⟨x, y⟩

def encodePoint (p : Point) : List UInt8 := bytesOfNatLE 32 (p.y + (p.x % 2) <<< 255)

/-- Verifies a signature of 64 bytes, a point and a number below the order, under a key whose bytes
are those of a point. -/
def verify (keyBytes : List UInt8) (key : Point) (message signature : List UInt8) : Bool :=
  if signature.length != 64 then false
  else
    let r := signature.take 32
    let s := natOfBytesLE (signature.drop 32)
    if order ≤ s then false
    else
      let k := natOfBytesLE (Hash.sha512.digest (r ++ keyBytes ++ message)) % order
      encodePoint ((base.multiple s).add (key.neg.multiple k)) == r

end BearerAuth.Crypto.Ed25519

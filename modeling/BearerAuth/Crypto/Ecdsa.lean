import BearerAuth.Crypto.Arithmetic
import BearerAuth.Crypto.Hash

namespace BearerAuth.Crypto

/-- A curve `y² = x³ - 3 x + b` over the integers modulo a prime, with a generator of prime
order. -/
structure Curve where
  bytes : Nat
  prime : Nat
  b : Nat
  order : Nat
  generatorX : Nat
  generatorY : Nat

namespace Curve

def p256 : Curve where
  bytes := 32
  prime := 0xffffffff00000001000000000000000000000000ffffffffffffffffffffffff
  b := 0x5ac635d8aa3a93e7b3ebbd55769886bc651d06b0cc53b0f63bce3c3e27d2604b
  order := 0xffffffff00000000ffffffffffffffffbce6faada7179e84f3b9cac2fc632551
  generatorX := 0x6b17d1f2e12c4247f8bce6e563a440f277037d812deb33a0f4a13945d898c296
  generatorY := 0x4fe342e2fe1a7f9b8ee7eb4a7c0f9e162bce33576b315ececbb6406837bf51f5

def p384 : Curve where
  bytes := 48
  prime :=
    0xfffffffffffffffffffffffffffffffffffffffffffffffffffffffffffffffeffffffff0000000000000000ffffffff
  b :=
    0xb3312fa7e23ee7e4988e056be3f82d19181d9c6efe8141120314088f5013875ac656398d8a2ed19d2a85c8edd3ec2aef
  order :=
    0xffffffffffffffffffffffffffffffffffffffffffffffffc7634d81f4372ddf581a0db248b0a77aecec196accc52973
  generatorX :=
    0xaa87ca22be8b05378eb1c71ef320ad746e1d3b628ba79b9859f741e082542a385502f25dbf55296c3a545e3872760ab7
  generatorY :=
    0x3617de4a96262c6f5d9e98bf9292dc29f8f41dbd289a147ce9da3113b5f0b8c00a60b1ce1d7e819d7a431d7c90ea0e5f

/-- A point of a curve. -/
inductive Point where
  | infinity
  | affine (x y : Nat)
deriving DecidableEq, Repr

def square (c : Curve) (x : Nat) : Nat :=
  ((x * x % c.prime * x) + (c.prime - 3) * x + c.b) % c.prime

def contains (c : Curve) (x y : Nat) : Bool :=
  x < c.prime && y < c.prime && y * y % c.prime == c.square x

/-- The third intersection of a line of a slope with the curve, reflected. -/
def chord (c : Curve) (slope x₁ y₁ x₂ : Nat) : Point :=
  let p := c.prime
  let x := subMod (subMod (slope * slope % p) x₁ p) x₂ p
  let y := subMod (slope * subMod x₁ x p % p) y₁ p
  .affine x y

def add (c : Curve) : Point → Point → Point
  | .infinity, q => q
  | p, .infinity => p
  | .affine x₁ y₁, .affine x₂ y₂ =>
    let p := c.prime
    if x₁ = x₂ then
      if (y₁ + y₂) % p = 0 then .infinity
      else c.chord ((3 * x₁ * x₁ + (p - 3)) % p * invMod (2 * y₁) p % p) x₁ y₁ x₂
    else
      c.chord (subMod y₂ y₁ p * invMod (subMod x₂ x₁ p) p % p) x₁ y₁ x₂

def multiple (c : Curve) (n : Nat) (q : Point) : Point :=
  if n = 0 then .infinity
  else
    let half := c.multiple (n / 2) (c.add q q)
    if n % 2 = 1 then c.add q half else half
termination_by n
decreasing_by omega

def generator (c : Curve) : Point := .affine c.generatorX c.generatorY

/-- The point of an encoding: `4` and both coordinates, or the parity of the second coordinate with
the first. -/
def decodePoint? (c : Curve) (bytes : List UInt8) : Option Point :=
  match bytes with
  | 0x04 :: rest =>
    if rest.length = 2 * c.bytes then
      let x := natOfBytes (rest.take c.bytes)
      let y := natOfBytes (rest.drop c.bytes)
      if c.contains x y then some (.affine x y) else none
    else none
  | tag :: rest =>
    if (tag == 0x02 || tag == 0x03) && rest.length == c.bytes then
      let x := natOfBytes rest
      let y := powMod (c.square x) ((c.prime + 1) / 4) c.prime
      let y := if y % 2 = tag.toNat % 2 then y else c.prime - y
      if c.contains x y then some (.affine x y) else none
    else none
  | [] => none

end Curve

/-- Verifies an ECDSA signature: both numbers lie from 1 to below the order, and the point they
determine has the first number as its first coordinate. -/
def verifyEcdsa (h : Hash) (c : Curve) (key : Curve.Point) (message signature : List UInt8) :
    Bool :=
  if signature.length != 2 * c.bytes then false
  else
    let r := natOfBytes (signature.take c.bytes)
    let s := natOfBytes (signature.drop c.bytes)
    let n := c.order
    if r = 0 || n ≤ r || s = 0 || n ≤ s then false
    else
      let z := natOfBytes ((h.digest message).take c.bytes)
      let w := invMod s n
      match c.add (c.multiple (z * w % n) c.generator) (c.multiple (r * w % n) key) with
      | .infinity => false
      | .affine x _ => x % n == r

end BearerAuth.Crypto

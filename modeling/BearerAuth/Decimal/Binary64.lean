/-!
Finite numbers of the 64-bit binary format, as a sign, a mantissa and an exponent, with the
roundings that reading, scaling and comparing them need. All arithmetic is on naturals: a result is
the nearest number of the format, ties going to the even mantissa.
-/

namespace BearerAuth

/-- The number `± mantissa · 2 ^ exponent`. The mantissa has 53 bits, fewer only at the smallest
exponent. -/
structure Binary64 where
  negative : Bool
  mantissa : Nat
  exponent : Int
deriving DecidableEq, Repr

namespace Binary64

def minExponent : Int := -1074

def maxExponent : Int := 971

def zero (negative : Bool) : Binary64 := ⟨negative, 0, minExponent⟩

/-- The quotient of two naturals, rounded half to even. -/
def divRound (num den : Nat) : Nat :=
  let q := num / den
  let r := num % den
  if 2 * r < den then q
  else if den < 2 * r then q + 1
  else q + q % 2

/-- The largest exponent `l` with `2 ^ l ≤ num / den`. -/
def floorLog2 (num den : Nat) : Int :=
  let l : Int := (Nat.log2 num : Int) - Nat.log2 den
  let reached := if 0 ≤ l then den <<< l.toNat ≤ num else den ≤ num <<< (-l).toNat
  if reached then l else l - 1

/-- The nearest number to `num / den`, if it is in range. -/
def ofRatio (negative : Bool) (num den : Nat) : Option Binary64 :=
  if num = 0 then
    some (zero negative)
  else
    let e := max (floorLog2 num den - 52) minExponent
    let m := if 0 ≤ e then divRound num (den <<< e.toNat) else divRound (num <<< (-e).toNat) den
    let (m, e) := if m = 0x20000000000000 then (0x10000000000000, e + 1) else (m, e)
    if maxExponent < e then none else some ⟨negative, m, e⟩

def ofNat (negative : Bool) (n : Nat) : Option Binary64 := ofRatio negative n 1

def ofInt (i : Int) : Option Binary64 := ofNat (i < 0) i.natAbs

def ratio (x : Binary64) : Nat × Nat :=
  if 0 ≤ x.exponent then (x.mantissa <<< x.exponent.toNat, 1)
  else (x.mantissa, 1 <<< (-x.exponent).toNat)

/-- The product by a power of ten that is itself rounded first. -/
def timesPowerOfTen (x : Binary64) (k : Nat) : Option Binary64 := do
  let p ← ofNat false (Nat.pow 10 k)
  let (a, b) := x.ratio
  let (c, d) := p.ratio
  ofRatio x.negative (a * c) (b * d)

/-- The quotient by a power of ten that is itself rounded first. -/
def overPowerOfTen (x : Binary64) (k : Nat) : Option Binary64 := do
  let p ← ofNat false (Nat.pow 10 k)
  let (a, b) := x.ratio
  let (c, d) := p.ratio
  ofRatio x.negative (a * d) (b * c)

def isIntegral (x : Binary64) : Bool := let (a, b) := x.ratio; a % b == 0

def floorAbs (x : Binary64) : Nat := let (a, b) := x.ratio; a / b

/-- The absolute value rounded to a natural, a half away from zero. -/
def roundAbs (x : Binary64) : Nat := let (a, b) := x.ratio; (2 * a + b) / (2 * b)

/-- The number without its fraction, held within the signed 64-bit integers. -/
def toInt64 (x : Binary64) : Int :=
  let n : Int := x.floorAbs
  if x.negative then max (-n) (-0x8000000000000000) else min n 0x7fffffffffffffff

end Binary64

end BearerAuth

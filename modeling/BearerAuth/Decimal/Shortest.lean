import BearerAuth.Decimal.Binary64

namespace BearerAuth.Decimal

/-- The positive decimal `0.d₁d₂d₃… · 10 ^ point`. -/
structure Scientific where
  digits : List Char
  point : Int
deriving DecidableEq, Repr

def digitsOf (n : Nat) : List Char := Nat.toDigits 10 n

/-- The number of decimal digits before the point of `a / b`; negative if zeros follow it. Every
positive number of the 64-bit format exceeds `10 ^ -400`. -/
def pointOf (a b : Nat) : Int := (digitsOf (a * Nat.pow 10 400 / b)).length - 400

/-- The bounds between which a decimal reads back as the number, doubled twice: twice the number
less and plus the distance to its neighbours, over `2 · den`. -/
structure Interval where
  low : Nat
  high : Nat
  den : Nat
  closed : Bool

/-- The interval of the reals that round to a positive number. -/
def Interval.of (x : Binary64) : Interval :=
  let lowGap := if x.mantissa = 0x10000000000000 && x.exponent != Binary64.minExponent then 1 else 2
  let scale (n : Nat) := if 0 ≤ x.exponent then n <<< x.exponent.toNat else n
  let den := if 0 ≤ x.exponent then 4 else 4 <<< (-x.exponent).toNat
  ⟨scale (4 * x.mantissa - lowGap), scale (4 * x.mantissa + 2), den, x.mantissa % 2 == 0⟩

/-- Whether `n · 10 ^ k` lies in an interval. -/
def Interval.contains (i : Interval) (n : Nat) (k : Int) : Bool :=
  let v := if 0 ≤ k then n * Nat.pow 10 k.toNat * i.den else n * i.den
  let s := if 0 ≤ k then 1 else Nat.pow 10 (-k).toNat
  if i.closed then i.low * s ≤ v && v ≤ i.high * s else i.low * s < v && v < i.high * s

/-- The nearest decimal of `count` digits that lies in the interval of `a / b`. -/
def candidate? (i : Interval) (a b : Nat) (point : Int) (count : Nat) : Option (Nat × Int) :=
  let k := point - count
  let num := if 0 ≤ k then a else a * Nat.pow 10 (-k).toNat
  let den := if 0 ≤ k then b * Nat.pow 10 k.toNat else b
  let down := num / den
  let nearUp := den ≤ 2 * (num % den)
  match i.contains down k, i.contains (down + 1) k with
  | true, true => some (if nearUp then down + 1 else down, k)
  | true, false => some (down, k)
  | false, true => some (down + 1, k)
  | false, false => none

/-- The shortest decimal of a number other than zero. Seventeen digits always suffice. -/
def shortest (x : Binary64) : Scientific :=
  let (a, b) := x.ratio
  let i := Interval.of x
  let point := pointOf a b
  match (List.range 17).findSome? fun n => candidate? i a b point (n + 1) with
  | some (n, k) =>
    let ds := digitsOf n
    let stripped := (ds.reverse.dropWhile (· == '0')).reverse
    ⟨stripped, k + ds.length⟩
  | none => ⟨digitsOf (a / b), point⟩

/-- The digits with a point, however many zeros that takes; a whole number has no point. -/
def Scientific.positional (d : Scientific) : List Char :=
  let n := d.digits.length
  if d.point ≤ 0 then '0' :: '.' :: (List.replicate (-d.point).toNat '0' ++ d.digits)
  else if (n : Int) ≤ d.point then d.digits ++ List.replicate (d.point.toNat - n) '0'
  else d.digits.take d.point.toNat ++ '.' :: d.digits.drop d.point.toNat

/-- The digits with one before the point, and an exponent with its sign. -/
def Scientific.exponential (d : Scientific) : List Char :=
  let mantissa := match d.digits with
    | [c] => [c]
    | c :: rest => c :: '.' :: rest
    | [] => ['0']
  let e := d.point - 1
  mantissa ++ 'e' :: (if e < 0 then '-' else '+') :: digitsOf e.natAbs

end BearerAuth.Decimal

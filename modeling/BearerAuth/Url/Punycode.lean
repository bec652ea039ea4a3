/-!
Labels of a domain name written in ASCII: the other characters are coded as differences of sorted
code points, in a variable-length base 36 whose thresholds adapt.
-/

namespace BearerAuth.Url.Punycode

def digit (d : Nat) : Char := if d < 26 then Char.ofNat (97 + d) else Char.ofNat (22 + d)

def value? (c : Char) : Option Nat :=
  let n := c.toNat
  if 97 ≤ n && n ≤ 122 then some (n - 97)
  else if 65 ≤ n && n ≤ 90 then some (n - 65)
  else if 48 ≤ n && n ≤ 57 then some (n - 22)
  else none

/-- The threshold at a weight of `k`. -/
def threshold (k bias : Nat) : Nat :=
  if k ≤ bias then 1 else if bias + 26 ≤ k then 26 else k - bias

theorem threshold_pos (k bias : Nat) : 0 < threshold k bias := by
  unfold threshold
  split
  · omega
  · split <;> omega

/-- Halves the range of a difference until it is small, counting weights. -/
def shrink (delta k : Nat) : Nat :=
  if 455 < delta then shrink (delta / 35) (k + 36) else k + 36 * delta / (delta + 38)
termination_by delta
decreasing_by omega

def adapt (delta count : Nat) (first : Bool) : Nat :=
  let d := if first then delta / 700 else delta / 2
  shrink (d + d / count) 0

def digits (bias k q : Nat) : List Char :=
  let t := threshold k bias
  if q < t then [digit q]
  else digit (t + (q - t) % (36 - t)) :: digits bias (k + 36) ((q - t) / (36 - t))
termination_by q
decreasing_by
  have := threshold_pos k bias
  have := Nat.div_le_self (q - threshold k bias) (36 - threshold k bias)
  omega

/-- The state of the encoder: the differences written, the difference pending, the bias, and how
many characters are done. -/
structure Encoding where
  written : List Char
  delta : Nat
  bias : Nat
  done : Nat

/-- Passes one character while those of code point `n` are coded. -/
def Encoding.pass (basic n : Nat) (e : Encoding) (c : Char) : Encoding :=
  if c.toNat < n then { e with delta := e.delta + 1 }
  else if c.toNat = n then
    ⟨e.written ++ digits e.bias 36 e.delta, 0, adapt e.delta (e.done + 1) (e.done == basic),
      e.done + 1⟩
  else e

/-- Codes the characters of each code point in turn; `n` is the code point reached. -/
def Encoding.run (label : List Char) (basic : Nat) : List Nat → Nat → Encoding → Encoding
  | [], _, e => e
  | m :: rest, n, e =>
    let e := { e with delta := e.delta + (m - n) * (e.done + 1) }
    let e := label.foldl (Encoding.pass basic m) e
    run label basic rest (m + 1) { e with delta := e.delta + 1 }

def encode (label : List Char) : List Char :=
  let basic := label.filter (·.toNat < 128)
  let points := ((label.map Char.toNat).filter (128 ≤ ·)).mergeSort.eraseDups
  let start := if basic.isEmpty then [] else basic ++ ['-']
  (Encoding.run label basic.length points 128 ⟨start, 0, 72, basic.length⟩).written

/-- Reads one difference: its value and the digits left. -/
def readDelta (bias : Nat) : Nat → Nat → Nat → List Char → Option (Nat × List Char)
  | _, _, _, [] => none
  | k, weight, acc, c :: rest => do
    let d ← value? c
    let acc := acc + d * weight
    let t := threshold k bias
    if d < t then some (acc, rest)
    else readDelta bias (k + 36) (weight * (36 - t)) acc rest

/-- Reads differences up to the end and puts the characters at their places. -/
def decodeFrom (out : List Char) (n i bias : Nat) (rest : List Char) : Option (List Char) :=
  match rest with
  | [] => some out
  | c :: cs =>
    match readDelta bias 36 1 0 (c :: cs) with
    | none => none
    | some (delta, left) =>
      if left.length ≤ cs.length then
        let count := out.length + 1
        let total := i + delta
        let n := n + total / count
        let i := total % count
        if n < 0xD800 || (0xDFFF < n && n < 0x110000) then
          decodeFrom (out.take i ++ Char.ofNat n :: out.drop i) n (i + 1)
            (adapt delta count (out.length == 0 && i == total)) left
        else none
      else none
termination_by rest.length

/-- The label of a code; the part before the last hyphen is plain. -/
def decode? (code : List Char) : Option (List Char) :=
  let plain := (code.reverse.dropWhile (· != '-')).reverse.dropLast
  let rest := (code.reverse.takeWhile (· != '-')).reverse
  decodeFrom plain 128 0 72 rest

end BearerAuth.Url.Punycode

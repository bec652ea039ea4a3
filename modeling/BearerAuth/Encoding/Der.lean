import BearerAuth.Text.Bytes
import BearerAuth.Crypto.Arithmetic

namespace BearerAuth.Encoding.Der

/-- A value, as far as it matters here. -/
inductive Block where
  | sequence (items : List Block)
  | bitString (bytes : List UInt8)
  | octetString (bytes : List UInt8)
  | objectIdentifier (arcs : List Nat)
  | other

/-- Reads a number in base 128, most significant digit first; the last digit has its top bit
clear. -/
def base128? (acc : Nat) : List UInt8 → Option (Nat × List UInt8)
  | [] => none
  | b :: rest =>
    let n := acc * 128 + b.toNat % 128
    if b.toNat < 128 then some (n, rest) else base128? n rest

/-- The arcs of base 128 numbers up to the end. -/
def arcs? (bytes : List UInt8) : Option (List Nat) :=
  match bytes with
  | [] => some []
  | b :: rest =>
    match base128? 0 (b :: rest) with
    | none => none
    | some (n, left) =>
      if left.length ≤ rest.length then (arcs? left).map (n :: ·) else none
termination_by bytes.length

/-- The arcs of an object identifier; the first byte holds two. -/
def objectIdentifier? : List UInt8 → Option (List Nat)
  | [] => none
  | b :: rest =>
    let n := b.toNat
    let first := if n < 40 then 0 else if n < 80 then 1 else 2
    (arcs? rest).map fun arcs => first :: (n - 40 * first) :: arcs

def length? : List UInt8 → Option (Nat × List UInt8)
  | [] => none
  | b :: rest =>
    let n := b.toNat
    if n < 0x80 then some (n, rest)
    else
      let count := n - 0x80
      if 8 < count || rest.length < count then none
      else some (Crypto.natOfBytes (rest.take count), rest.drop count)

def tag? (lead : UInt8) (rest : List UInt8) : Option (Nat × List UInt8) :=
  let n := lead.toNat % 32
  if n = 31 then base128? 0 rest else some (n, rest)

def isPrintable (b : UInt8) : Bool :=
  let c := Char.ofNat b.toNat
  c.isAlphanum || " '()+,-./:=?".toList.contains c

/-- Whether the content of a value that is not kept has the form of its tag. -/
def isWellFormed (tag : Nat) (body : List UInt8) : Bool :=
  match tag with
  | 0x01 => body.length == 1
  | 0x0C => (Text.Utf8.decode? body).isSome
  | 0x13 => body.all isPrintable
  | 0x14 => (Text.Utf8.decode? body).isSome
  | 0x16 => body.all (·.toNat < 128)
  | 0x17 => body.length == 13
  | 0x18 => body.length == 15
  | 0x1C => (Text.Utf8.decode? body).isSome
  | _ => true

/-- Reads values up to the end of the bytes; there is at least one. Nesting is as deep as the first
argument, for which the number of bytes suffices. -/
def blocks? : Nat → List UInt8 → Option (List Block)
  | 0, _ => none
  | fuel + 1, bytes =>
    match bytes with
    | [] => none
    | lead :: rest => do
      let (tag, rest) ← tag? lead rest
      let (length, rest) ← length? rest
      if rest.length < length then
        none
      let body := rest.take length
      let universal := lead.toNat < 64
      let block ←
        if !universal then some .other
        else match tag with
          | 0x03 =>
            match body with
            | [] => some (.bitString [])
            | unused :: bits =>
              if bits.length * 8 < unused.toNat then none else some (.bitString bits)
          | 0x04 => some (.octetString body)
          | 0x06 => (objectIdentifier? body).map .objectIdentifier
          | 0x10 => (blocks? fuel body).map .sequence
          | 0x11 => (blocks? fuel body).map fun _ => .other
          | tag => if isWellFormed tag body then some .other else none
      let left := rest.drop length
      if left.isEmpty then
        return [block]
      else do
        let blocks ← blocks? fuel left
        return block :: blocks

def read? (bytes : List UInt8) : Option (List Block) := blocks? (bytes.length + 1) bytes

mutual

/-- The first bit or octet string, looked for inside sequences. -/
def Block.firstString? : Block → Option (List UInt8)
  | .sequence items => firstString? items
  | .bitString bytes => some bytes
  | .octetString bytes => some bytes
  | .objectIdentifier _ => none
  | .other => none

def firstString? : List Block → Option (List UInt8)
  | [] => none
  | b :: rest => match b.firstString? with
    | some bytes => some bytes
    | none => firstString? rest

end

mutual

/-- The first answer that a function gives to an object identifier, looked for inside sequences. -/
def Block.findIdentifier? {α : Type} (f : List Nat → Option α) : Block → Option α
  | .sequence items => findIdentifier? f items
  | .objectIdentifier arcs => f arcs
  | .bitString _ => none
  | .octetString _ => none
  | .other => none

/-- The first answer that a function gives to an object identifier of several values. -/
def findIdentifier? {α : Type} (f : List Nat → Option α) : List Block → Option α
  | [] => none
  | b :: rest => match b.findIdentifier? f with
    | some a => some a
    | none => findIdentifier? f rest

end

def strictLength? (bytes : List UInt8) : Option (Nat × List UInt8) := do
  let (n, rest) ← length? bytes
  let used := bytes.length - rest.length
  let needed := if n < 0x80 then 1 else 1 + (Crypto.bitLength n + 7) / 8
  if used = needed then some (n, rest) else none

/-- Reads a value of a tag in its strict form: its content and what follows. -/
def strictValue? (tag : UInt8) : List UInt8 → Option (List UInt8 × List UInt8)
  | [] => none
  | b :: rest => do
    if b != tag then
      none
    let (n, rest) ← strictLength? rest
    if rest.length < n then
      none
    return (rest.take n, rest.drop n)

/-- The natural of an integer's content: at least one byte, not negative, no needless zero. -/
def strictNat? : List UInt8 → Option Nat
  | [] => none
  | [b] => if b.toNat < 128 then some b.toNat else none
  | b :: c :: rest =>
    if 128 ≤ b.toNat || (b == 0 && c.toNat < 128) then none
    else some (Crypto.natOfBytes (b :: c :: rest))

/-- The two naturals of a sequence of exactly two integers. -/
def strictNatPair? (bytes : List UInt8) : Option (Nat × Nat) := do
  let (body, rest) ← strictValue? 0x30 bytes
  if !rest.isEmpty then
    none
  let (first, rest) ← strictValue? 0x02 body
  let (second, rest) ← strictValue? 0x02 rest
  if !rest.isEmpty then
    none
  return (← strictNat? first, ← strictNat? second)

end BearerAuth.Encoding.Der

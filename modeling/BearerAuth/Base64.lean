namespace BearerAuth.Base64

/-- The two alphabets; they differ in the last two symbols. -/
inductive Alphabet where
  | standard
  | urlSafe
deriving DecidableEq, Repr

/-- What a decoder demands of the padding with `=`. -/
inductive Padding where
  | canonical
  | absent
  | indifferent
deriving DecidableEq, Repr

/-- Why a text is not base64. -/
inductive DecodeError where
  | symbol (byte : UInt8) (offset : Nat)
  | length (n : Nat)
  | lastSymbol (byte : UInt8) (offset : Nat)
  | padding
deriving DecidableEq, Repr

def DecodeError.message : DecodeError → String
  | .symbol byte offset => s!"Invalid symbol {byte}, offset {offset}."
  | .length n => s!"Invalid input length: {n}"
  | .lastSymbol byte offset => s!"Invalid last symbol {byte}, offset {offset}."
  | .padding => "Invalid padding"

/-- The padding symbol `=`. -/
def pad : UInt8 := 61

def Alphabet.symbol (a : Alphabet) (v : Nat) : UInt8 :=
  if v < 26 then UInt8.ofNat (65 + v)
  else if v < 52 then UInt8.ofNat (71 + v)
  else if v < 62 then UInt8.ofNat (v - 4)
  else match a, v with
    | .standard, 62 => 43
    | .standard, _ => 47
    | .urlSafe, 62 => 45
    | .urlSafe, _ => 95

def Alphabet.value? (a : Alphabet) (b : UInt8) : Option Nat :=
  let n := b.toNat
  if 65 ≤ n && n ≤ 90 then some (n - 65)
  else if 97 ≤ n && n ≤ 122 then some (n - 71)
  else if 48 ≤ n && n ≤ 57 then some (n + 4)
  else match a with
    | .standard => if n = 43 then some 62 else if n = 47 then some 63 else none
    | .urlSafe => if n = 45 then some 62 else if n = 95 then some 63 else none

/-- The values of symbols that start at an offset, or the first symbol that has none. -/
def Alphabet.values (a : Alphabet) (offset : Nat) : List UInt8 → Except DecodeError (List Nat)
  | [] => .ok []
  | b :: rest =>
    match a.value? b with
    | none => .error (.symbol b offset)
    | some v => (a.values (offset + 1) rest).map (v :: ·)

/-- The bytes of the values of one group of symbols, and whether no bit is left over. -/
def groupBytes : List Nat → List UInt8 × Bool
  | [x, y] => ([UInt8.ofNat (x * 4 + y / 16)], y % 16 == 0)
  | [x, y, z] => ([UInt8.ofNat (x * 4 + y / 16), UInt8.ofNat (y % 16 * 16 + z / 4)], z % 4 == 0)
  | [x, y, z, w] =>
    ([UInt8.ofNat (x * 4 + y / 16), UInt8.ofNat (y % 16 * 16 + z / 4),
      UInt8.ofNat (z % 4 * 64 + w)], true)
  | _ => ([], true)

/-- Decodes the last group, of at most four symbols, padding included. -/
def decodeLast (a : Alphabet) (p : Padding) (offset : Nat) (group : List UInt8) :
    Except DecodeError (List UInt8) := do
  let symbols := group.takeWhile (· != pad)
  let tail := group.dropWhile (· != pad)
  let count := symbols.length
  let values ← a.values offset symbols
  if !tail.isEmpty && (count < 2 || tail.any (· != pad)) then
    throw (.symbol pad (offset + count))
  if !group.isEmpty && count < 2 then
    throw (.length (offset + count))
  match p with
  | .indifferent => pure ()
  | .canonical => if group.length % 4 != 0 then throw .padding
  | .absent => if !tail.isEmpty then throw .padding
  let (bytes, clean) := groupBytes values
  if clean then
    return bytes
  else
    throw (.lastSymbol (symbols.getLastD 0) (offset + count - 1))

/-- Decodes symbols that start at an offset: full groups of four while more follows, then the last
group. -/
def decodeGroups (a : Alphabet) (p : Padding) (offset : Nat) :
    List UInt8 → Except DecodeError (List UInt8)
  | b₁ :: b₂ :: b₃ :: b₄ :: b₅ :: rest => do
    let values ← a.values offset [b₁, b₂, b₃, b₄]
    let bytes ← decodeGroups a p (offset + 4) (b₅ :: rest)
    return (groupBytes values).1 ++ bytes
  | group => decodeLast a p offset group

/-- The symbol that is alone after the full groups and in no alphabet; it is reported before
anything else. -/
def strayLast? (a : Alphabet) (input : List UInt8) : Option UInt8 :=
  match input.getLast? with
  | some b => if input.length % 4 == 1 && b != pad && (a.value? b).isNone then some b else none
  | none => none

def decode (a : Alphabet) (p : Padding) (input : List UInt8) : Except DecodeError (List UInt8) :=
  match strayLast? a input with
  | some b => .error (.symbol b (input.length - 1))
  | none => decodeGroups a p 0 input

/-- The symbols of bytes, with or without padding. -/
def encode (a : Alphabet) (padded : Bool) : List UInt8 → List UInt8
  | [] => []
  | [b] =>
    [a.symbol (b.toNat / 4), a.symbol (b.toNat % 4 * 16)] ++ if padded then [pad, pad] else []
  | [b, c] =>
    [a.symbol (b.toNat / 4), a.symbol (b.toNat % 4 * 16 + c.toNat / 16),
      a.symbol (c.toNat % 16 * 4)] ++ if padded then [pad] else []
  | b :: c :: d :: rest =>
    [a.symbol (b.toNat / 4), a.symbol (b.toNat % 4 * 16 + c.toNat / 16),
      a.symbol (c.toNat % 16 * 4 + d.toNat / 64), a.symbol (d.toNat % 64)] ++
      encode a padded rest

def encodeText (a : Alphabet) (padded : Bool) (bytes : List UInt8) : String :=
  String.ofList ((encode a padded bytes).map fun b => Char.ofNat b.toNat)

end BearerAuth.Base64

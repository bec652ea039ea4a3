import BearerAuth.Crypto.Arithmetic

/-!
The hash functions SHA-256, SHA-384 and SHA-512. Their constants are computed: the round constants
are the fractions of the cube roots of the first primes, the initial states those of the square
roots.
-/

namespace BearerAuth.Crypto

/-- The hash functions. -/
inductive Hash where
  | sha256
  | sha384
  | sha512
deriving DecidableEq, Repr

namespace Sha2

def primesBelow (bound : Nat) : List Nat :=
  (List.range bound).filter fun n => 2 ≤ n && (List.range n).all fun d => d < 2 || n % d != 0

/-- The largest number of at most `bits` bits whose `k`-th power is at most `n`. -/
def root (k bits n : Nat) : Nat :=
  (List.range bits).reverse.foldl (fun r b =>
    let next := r + 1 <<< b
    if Nat.pow next k ≤ n then next else r) 0

/-- The first `w` bits of the fraction of the `k`-th root of `n`. -/
def rootFraction (k w n : Nat) : BitVec w := BitVec.ofNat w (root k (w + 8) (n <<< (k * w)))

/-- What tells the two word sizes apart: the rounds, and the rotations of the four mixing functions,
the last of which is a shift in the schedule. -/
structure Shape where
  wordBytes : Nat
  rounds : Nat
  state₀ : Nat × Nat × Nat
  state₁ : Nat × Nat × Nat
  schedule₀ : Nat × Nat × Nat
  schedule₁ : Nat × Nat × Nat

abbrev Shape.width (s : Shape) : Nat := 8 * s.wordBytes

def short : Shape := ⟨4, 64, (2, 13, 22), (6, 11, 25), (7, 18, 3), (17, 19, 10)⟩

def long : Shape := ⟨8, 80, (28, 34, 39), (14, 18, 41), (1, 8, 7), (19, 61, 6)⟩

/-- The eight words of the state. -/
structure State (w : Nat) where
  a : BitVec w
  b : BitVec w
  c : BitVec w
  d : BitVec w
  e : BitVec w
  f : BitVec w
  g : BitVec w
  h : BitVec w

def State.words {w : Nat} (s : State w) : List (BitVec w) :=
  [s.a, s.b, s.c, s.d, s.e, s.f, s.g, s.h]

def State.bytes {w : Nat} (s : State w) : List UInt8 :=
  s.words.flatMap fun x => bytesOfNat (w / 8) x.toNat

/-- The sum of two states, word by word. -/
def State.add {w : Nat} (s t : State w) : State w :=
  ⟨s.a + t.a, s.b + t.b, s.c + t.c, s.d + t.d, s.e + t.e, s.f + t.f, s.g + t.g, s.h + t.h⟩

def State.ofPrimes (w : Nat) (primes : List Nat) : State w :=
  let word (i : Nat) := rootFraction 2 w (primes.getD i 0)
  ⟨word 0, word 1, word 2, word 3, word 4, word 5, word 6, word 7⟩

def rotations {w : Nat} (r : Nat × Nat × Nat) (x : BitVec w) : BitVec w :=
  x.rotateRight r.1 ^^^ x.rotateRight r.2.1 ^^^ x.rotateRight r.2.2

def rotationsShift {w : Nat} (r : Nat × Nat × Nat) (x : BitVec w) : BitVec w :=
  x.rotateRight r.1 ^^^ x.rotateRight r.2.1 ^^^ x >>> r.2.2

def roundConstants (s : Shape) : List (BitVec s.width) :=
  ((primesBelow 410).take s.rounds).map (rootFraction 3 s.width)

/-- The message schedule, latest word first, extended by a number of words. -/
def extendSchedule (s : Shape) : Nat → List (BitVec s.width) → List (BitVec s.width)
  | 0, words => words
  | n + 1, words =>
    let word (i : Nat) := words.getD i 0
    let next := rotationsShift s.schedule₁ (word 1) + word 6 + rotationsShift s.schedule₀ (word 14)
      + word 15
    extendSchedule s n (next :: words)

def round (s : Shape) (x : State s.width) (kw : BitVec s.width × BitVec s.width) :
    State s.width :=
  let choice := (x.e &&& x.f) ^^^ (~~~x.e &&& x.g)
  let majority := (x.a &&& x.b) ^^^ (x.a &&& x.c) ^^^ (x.b &&& x.c)
  let t₁ := x.h + rotations s.state₁ x.e + choice + kw.1 + kw.2
  let t₂ := rotations s.state₀ x.a + majority
  ⟨t₁ + t₂, x.a, x.b, x.c, x.d + t₁, x.e, x.f, x.g⟩

def compress (s : Shape) (constants : List (BitVec s.width)) (x : State s.width)
    (block : List (BitVec s.width)) : State s.width :=
  let schedule := (extendSchedule s (s.rounds - 16) block.reverse).reverse
  x.add ((constants.zip schedule).foldl (round s) x)

/-- The message with its padding: a one bit, zeros, and its length in bits. -/
def padMessage (s : Shape) (message : List UInt8) : List UInt8 :=
  let block := 16 * s.wordBytes
  let tail := 2 * s.wordBytes
  let used := (message.length + 1 + tail) % block
  let zeros := (block - used) % block
  message ++ 0x80 :: (List.replicate zeros 0 ++ bytesOfNat tail (8 * message.length))

/-- The consecutive parts of `size` elements; a shorter rest is dropped. -/
def chunks {α : Type} (size : Nat) (xs : List α) : List (List α) :=
  (List.range (xs.length / size)).map fun i => (xs.drop (i * size)).take size

def wordsOf (s : Shape) (bytes : List UInt8) : List (BitVec s.width) :=
  (chunks s.wordBytes bytes).map fun c => BitVec.ofNat s.width (natOfBytes c)

def run (s : Shape) (constants : List (BitVec s.width)) (initial : State s.width)
    (message : List UInt8) : State s.width :=
  (chunks 16 (wordsOf s (padMessage s message))).foldl (compress s constants) initial

def shortConstants : List (BitVec short.width) := roundConstants short

def longConstants : List (BitVec long.width) := roundConstants long

def initial256 : State short.width := State.ofPrimes _ ((primesBelow 54).take 8)

def initial384 : State long.width := State.ofPrimes _ ((primesBelow 54).drop 8)

def initial512 : State long.width := State.ofPrimes _ ((primesBelow 54).take 8)

end Sha2

def Hash.size : Hash → Nat
  | .sha256 => 32
  | .sha384 => 48
  | .sha512 => 64

/-- The number of bytes that a hash function takes in at a time. -/
def Hash.blockSize : Hash → Nat
  | .sha256 => 64
  | .sha384 => 128
  | .sha512 => 128

def Hash.digest (h : Hash) (message : List UInt8) : List UInt8 :=
  let bytes := match h with
    | .sha256 => (Sha2.run Sha2.short Sha2.shortConstants Sha2.initial256 message).bytes
    | .sha384 => (Sha2.run Sha2.long Sha2.longConstants Sha2.initial384 message).bytes
    | .sha512 => (Sha2.run Sha2.long Sha2.longConstants Sha2.initial512 message).bytes
  bytes.take h.size

/-- The key at the length of a block: a longer key is hashed first, a shorter one is filled with
zeros. -/
def hmacBlockKey (h : Hash) (key : List UInt8) : List UInt8 :=
  let k := if h.blockSize < key.length then h.digest key else key
  k ++ List.replicate (h.blockSize - k.length) 0

/-- The authentication code of a message under a key of any length. -/
def hmac (h : Hash) (key message : List UInt8) : List UInt8 :=
  let k := hmacBlockKey h key
  h.digest (k.map (· ^^^ 0x5c) ++ h.digest (k.map (· ^^^ 0x36) ++ message))

end BearerAuth.Crypto

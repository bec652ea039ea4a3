namespace BearerAuth.Crypto

def natOfBytes (bytes : List UInt8) : Nat := bytes.foldl (fun n b => n * 256 + b.toNat) 0

def natOfBytesLE (bytes : List UInt8) : Nat := natOfBytes bytes.reverse

/-- The last `length` big-endian bytes of a natural. -/
def bytesOfNat (length n : Nat) : List UInt8 :=
  (List.range length).map fun i => UInt8.ofNat (n >>> (8 * (length - 1 - i)) % 256)

/-- The first `length` little-endian bytes of a natural. -/
def bytesOfNatLE (length n : Nat) : List UInt8 := (bytesOfNat length n).reverse

def bitLength (n : Nat) : Nat := if n = 0 then 0 else Nat.log2 n + 1

@[simp] theorem length_bytesOfNat (length n : Nat) : (bytesOfNat length n).length = length := by
  simp [bytesOfNat]

/-- The power `b ^ e` modulo `m`. -/
def powMod (b e m : Nat) : Nat :=
  if e = 0 then 1 % m
  else
    let r := powMod (b * b % m) (e / 2) m
    if e % 2 = 1 then b * r % m else r
termination_by e
decreasing_by omega

/-- Euclid's algorithm: from `r₀ ≡ s₀ · a` and `r₁ ≡ s₁ · a` to the last remainder before zero, as
the pair of it and its factor. -/
def euclid (r₀ r₁ : Nat) (s₀ s₁ : Int) : Nat × Int :=
  if r₁ = 0 then (r₀, s₀)
  else euclid r₁ (r₀ % r₁) s₁ (s₀ - (r₀ / r₁ : Nat) * s₁)
termination_by r₁
decreasing_by exact Nat.mod_lt _ (by omega)

/-- The inverse of `a` modulo `m`; zero has none, and zero is given for it. -/
def invMod (a m : Nat) : Nat :=
  let (_, s) := euclid m (a % m) 0 1
  (s % (m : Int)).toNat

/-- The difference modulo `m`, of numbers below `m`. -/
def subMod (a b m : Nat) : Nat := (a + (m - b)) % m

end BearerAuth.Crypto

import BearerAuth.Crypto.Hash

namespace BearerAuth.Crypto

namespace Sha2

/-- The round constants as the standard lists them. -/
def listedConstants : List Nat :=
  [
    0x428a2f98, 0x71374491, 0xb5c0fbcf, 0xe9b5dba5, 0x3956c25b, 0x59f111f1, 0x923f82a4, 0xab1c5ed5,
    0xd807aa98, 0x12835b01, 0x243185be, 0x550c7dc3, 0x72be5d74, 0x80deb1fe, 0x9bdc06a7, 0xc19bf174,
    0xe49b69c1, 0xefbe4786, 0x0fc19dc6, 0x240ca1cc, 0x2de92c6f, 0x4a7484aa, 0x5cb0a9dc, 0x76f988da,
    0x983e5152, 0xa831c66d, 0xb00327c8, 0xbf597fc7, 0xc6e00bf3, 0xd5a79147, 0x06ca6351, 0x14292967,
    0x27b70a85, 0x2e1b2138, 0x4d2c6dfc, 0x53380d13, 0x650a7354, 0x766a0abb, 0x81c2c92e, 0x92722c85,
    0xa2bfe8a1, 0xa81a664b, 0xc24b8b70, 0xc76c51a3, 0xd192e819, 0xd6990624, 0xf40e3585, 0x106aa070,
    0x19a4c116, 0x1e376c08, 0x2748774c, 0x34b0bcb5, 0x391c0cb3, 0x4ed8aa4a, 0x5b9cca4f, 0x682e6ff3,
    0x748f82ee, 0x78a5636f, 0x84c87814, 0x8cc70208, 0x90befffa, 0xa4506ceb, 0xbef9a3f7, 0xc67178f2
  ]

/-- The initial state as the standard lists it. -/
def listedInitial : State short.width :=
  ⟨0x6a09e667, 0xbb67ae85, 0x3c6ef372, 0xa54ff53a, 0x510e527f, 0x9b05688c, 0x1f83d9ab, 0x5be0cd19⟩

theorem shortConstants_eq :
    shortConstants = listedConstants.map (BitVec.ofNat short.width) := by
  decide +kernel

theorem words_initial256 : initial256.words = listedInitial.words := by
  decide +kernel

theorem State.eq_of_words {w : Nat} {s t : State w} (h : s.words = t.words) : s = t := by
  obtain ⟨a, b, c, d, e, f, g, i⟩ := s
  simp only [words, List.cons.injEq, and_true] at h
  obtain ⟨rfl, rfl, rfl, rfl, rfl, rfl, rfl, rfl⟩ := h
  rfl

/-- The digest with the constants that are listed. -/
def listedDigest (message : List UInt8) : List UInt8 :=
  (run short (listedConstants.map (BitVec.ofNat short.width)) listedInitial message).bytes.take 32

end Sha2

/-- To evaluate a digest the constants need not be computed from the primes. -/
theorem digest_sha256 (message : List UInt8) :
    Hash.sha256.digest message = Sha2.listedDigest message := by
  have hinitial : Sha2.initial256 = Sha2.listedInitial :=
    Sha2.State.eq_of_words Sha2.words_initial256
  change (Sha2.run Sha2.short Sha2.shortConstants Sha2.initial256 message).bytes.take 32 = _
  rw [Sha2.shortConstants_eq, hinitial]
  rfl

/-- The code of a message under a key that fits a block, with the constants that are listed. -/
def listedHmac (key message : List UInt8) : List UInt8 :=
  let padded := key ++ List.replicate (64 - key.length) 0
  Sha2.listedDigest (padded.map (· ^^^ 0x5c) ++
    Sha2.listedDigest (padded.map (· ^^^ 0x36) ++ message))

theorem hmac_sha256 {key : List UInt8} (hkey : key.length ≤ 64) (message : List UInt8) :
    hmac .sha256 key message = listedHmac key message := by
  have hblock : hmacBlockKey .sha256 key = key ++ List.replicate (64 - key.length) 0 := by
    have hfits : ¬ Hash.sha256.blockSize < key.length := Nat.not_lt.mpr hkey
    unfold hmacBlockKey
    rw [if_neg hfits]
    rfl
  unfold hmac
  rw [hblock, digest_sha256, digest_sha256]
  rfl

end BearerAuth.Crypto

import Mathlib.Tactic.Common
import BearerAuth.Key.Material
import BearerAuth.Proofs.Crypto.Hash

namespace BearerAuth

/-- A signature over a message that a key stands for under an algorithm. -/
inductive KeyMaterial.Signs (alg : Algorithm) (message signature : List UInt8) : KeyMaterial → Prop
  | hmac {bytes : List UInt8} (hfamily : alg.family = .hmac)
      (hcode : Crypto.hmac alg.hash bytes message = signature) :
      Signs alg message signature (.secret bytes)
  | pkcs1 {key : KeyMaterial} {k : Crypto.Rsa.PublicKey} (halg : alg ∈ [.rs256, .rs384, .rs512])
      (hkey : key.rsaKey? = some k)
      (hverify : Crypto.Rsa.verifyPkcs1 alg.hash k message signature = true) :
      Signs alg message signature key
  | pss {key : KeyMaterial} {k : Crypto.Rsa.PublicKey} (halg : alg ∈ [.ps256, .ps384, .ps512])
      (hkey : key.rsaKey? = some k)
      (hverify : Crypto.Rsa.verifyPss alg.hash k message signature = true) :
      Signs alg message signature key
  | ecdsa {bytes : List UInt8} {point : Crypto.Curve.Point} (hfamily : alg.family = .ec)
      (hpoint : alg.curve.decodePoint? bytes = some point)
      (hverify : Crypto.verifyEcdsa alg.hash alg.curve point message signature = true) :
      Signs alg message signature (.ecPoint bytes)
  | ed25519 {bytes : List UInt8} {point : Crypto.Ed25519.Point} (hfamily : alg.family = .ed)
      (hlength : 32 ≤ bytes.length)
      (hpoint : Crypto.Ed25519.decodePoint? (bytes.take 32) = some point)
      (hverify : Crypto.Ed25519.verify (bytes.take 32) point message signature = true) :
      Signs alg message signature (.edPoint bytes)

namespace KeyMaterial

theorem family_of_rsaKey? {key : KeyMaterial} {k : Crypto.Rsa.PublicKey}
    (h : key.rsaKey? = some k) : key.family = .rsa := by
  cases key with
  | rsaEncoded bytes => rfl
  | rsaNumbers n e => rfl
  | secret bytes => exact nomatch h
  | ecPoint bytes => exact nomatch h
  | edPoint bytes => exact nomatch h

/-- A key signs under algorithms of its own kind only. -/
theorem Signs.family_eq {alg : Algorithm} {message signature : List UInt8} {key : KeyMaterial}
    (h : Signs alg message signature key) : key.family = alg.family := by
  cases h with
  | hmac hfamily => exact hfamily.symm
  | pkcs1 halg hkey =>
    simp only [List.mem_cons, List.not_mem_nil, or_false] at halg
    rcases halg with rfl | rfl | rfl <;> exact family_of_rsaKey? hkey
  | pss halg hkey =>
    simp only [List.mem_cons, List.not_mem_nil, or_false] at halg
    rcases halg with rfl | rfl | rfl <;> exact family_of_rsaKey? hkey
  | ecdsa hfamily => exact hfamily.symm
  | ed25519 hfamily => exact hfamily.symm

/-- The check of an RSA key, whatever its encoding, follows the scheme of the algorithm. -/
theorem check_rsa (key : KeyMaterial) (alg : Algorithm) :
    key.family = .rsa → alg.family = .rsa → key.check alg = .ok fun message signature =>
      match key.rsaKey? with
      | none => false
      | some k =>
        match alg with
        | .ps256 | .ps384 | .ps512 => Crypto.Rsa.verifyPss alg.hash k message signature
        | _ => Crypto.Rsa.verifyPkcs1 alg.hash k message signature := by
  intro hkey halg
  cases key with
  | rsaEncoded _ | rsaNumbers _ _ =>
    cases alg with
    | hs256 | hs384 | hs512 | es256 | es384 | edDsa => exact nomatch halg
    | _ => rfl
  | secret bytes => exact nomatch hkey
  | ecPoint bytes => exact nomatch hkey
  | edPoint bytes => exact nomatch hkey

theorem signs_of_check_rsa {key : KeyMaterial} {alg : Algorithm} {check : SignatureCheck}
    {message signature : List UInt8} (hkey : key.family = .rsa) (halg : alg.family = .rsa)
    (h : key.check alg = .ok check) (hcheck : check message signature = true) :
    Signs alg message signature key := by
  rw [check_rsa key alg hkey halg] at h
  cases h
  cases hk : key.rsaKey? with
  | none => simp only [hk, Bool.false_eq_true] at hcheck
  | some k =>
    simp only [hk] at hcheck
    cases alg with
    | rs256 => exact .pkcs1 (by decide) hk hcheck
    | rs384 => exact .pkcs1 (by decide) hk hcheck
    | rs512 => exact .pkcs1 (by decide) hk hcheck
    | ps256 => exact .pss (by decide) hk hcheck
    | ps384 => exact .pss (by decide) hk hcheck
    | ps512 => exact .pss (by decide) hk hcheck
    | _ => exact nomatch halg

theorem signs_of_check {key : KeyMaterial} {alg : Algorithm} {check : SignatureCheck}
    {message signature : List UInt8} (h : key.check alg = .ok check)
    (hcheck : check message signature = true) : Signs alg message signature key := by
  have hcopy := h
  -- the cases are those of the check: keys of the kind of the algorithm, and the rest
  unfold KeyMaterial.check at h
  split at h
  · next bytes hfamily =>
    cases h
    exact .hmac hfamily (beq_iff_eq.mp hcheck)
  · next bytes hfamily => exact signs_of_check_rsa rfl hfamily hcopy hcheck
  · next n e hfamily => exact signs_of_check_rsa rfl hfamily hcopy hcheck
  · next bytes hfamily =>
    cases hpoint : alg.curve.decodePoint? bytes with
    | none => rw [hpoint] at h; exact nomatch h
    | some point =>
      rw [hpoint] at h
      cases h
      exact .ecdsa hfamily hpoint hcheck
  · next bytes hfamily =>
    split at h
    · exact nomatch h
    · next hlength =>
      cases hpoint : Crypto.Ed25519.decodePoint? (bytes.take 32) with
      | none => simp only [hpoint, reduceCtorEq] at h
      | some point =>
        simp only [hpoint, Attempt.ok.injEq] at h
        subst h
        exact .ed25519 hfamily (Nat.not_lt.mp hlength) hpoint hcheck
  · exact nomatch h

theorem Signs.exists_check {key : KeyMaterial} {alg : Algorithm} {message signature : List UInt8}
    (h : Signs alg message signature key) :
    ∃ check, key.check alg = .ok check ∧ check message signature = true := by
  have hfamily := h.family_eq
  cases h with
  | hmac halg hcode =>
    refine ⟨_, by unfold check; rw [halg], ?_⟩
    exact beq_iff_eq.mpr hcode
  | pkcs1 halg hkey hverify =>
    have hrsa := family_of_rsaKey? hkey
    refine ⟨_, check_rsa key alg hrsa (hfamily.symm.trans hrsa), ?_⟩
    simp only [List.mem_cons, List.not_mem_nil, or_false] at halg
    rcases halg with rfl | rfl | rfl <;> simpa only [hkey] using hverify
  | pss halg hkey hverify =>
    have hrsa := family_of_rsaKey? hkey
    refine ⟨_, check_rsa key alg hrsa (hfamily.symm.trans hrsa), ?_⟩
    simp only [List.mem_cons, List.not_mem_nil, or_false] at halg
    rcases halg with rfl | rfl | rfl <;> simpa only [hkey] using hverify
  | ecdsa halg hpoint hverify =>
    refine ⟨_, by unfold check; rw [halg]; simp only [hpoint], hverify⟩
  | ed25519 halg hlength hpoint hverify =>
    refine ⟨_, ?_, hverify⟩
    unfold check
    rw [halg]
    simp only [Nat.not_lt.mpr hlength, ↓reduceIte, hpoint]

/-- A text passes as a signature exactly when it encodes, without padding, a valid one. -/
theorem verifies_eq_true_iff (key : KeyMaterial) (alg : Algorithm) (message signature : String) :
    key.verifies alg message signature = .ok true ↔
      ∃ bytes, Base64.decode .urlSafe .absent (Text.Utf8.encode signature) = .ok bytes ∧
        Signs alg (Text.Utf8.encode message) bytes key := by
  unfold verifies
  rw [Attempt.bind_eq_ok_iff]
  constructor
  · rintro ⟨check, hcheck, h⟩
    split at h
    · exact nomatch h
    · next bytes hbytes => exact ⟨bytes, hbytes, signs_of_check hcheck (Attempt.ok.inj h)⟩
  · rintro ⟨bytes, hbytes, hsigns⟩
    obtain ⟨check, hcheck, htrue⟩ := hsigns.exists_check
    exact ⟨check, hcheck, by rw [hbytes]; exact congrArg _ htrue⟩

/-- The encoded code of a message under a secret passes as its signature. -/
theorem verifies_of_hmac {secret : List UInt8} {message signature : String}
    (hsecret : secret.length ≤ 64)
    (hcode : Base64.decode .urlSafe .absent (Text.Utf8.encode signature) =
      .ok (Crypto.listedHmac secret (Text.Utf8.encode message))) :
    verifies (.secret secret) .hs256 message signature = .ok true := by
  have hhmac := Crypto.hmac_sha256 hsecret (Text.Utf8.encode message)
  exact (verifies_eq_true_iff _ _ _ _).mpr ⟨_, hcode, .hmac rfl hhmac⟩

end KeyMaterial

end BearerAuth

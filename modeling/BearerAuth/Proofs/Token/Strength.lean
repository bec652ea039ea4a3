import BearerAuth.Proofs.Key.Failure
import BearerAuth.Proofs.Token.Soundness

namespace BearerAuth

open Outcome

namespace SignedVerifier

/-- A judgement that calls no key weak. -/
def NeverBlamesKey {α : Type} (x : Except VerificationError α) : Prop :=
  FailsIn (fun e => ∀ bits required, e ≠ .key (.weakKey bits required)) x

theorem neverBlamesKey_claimsOf (document : Json) : NeverBlamesKey (claimsOf document) := by
  unfold claimsOf
  split
  · exact .ok _
  · exact .error nofun

theorem neverBlamesKey_readPayload (messages : Json.FormMessages) (e : Expectation)
    (payload : String) : NeverBlamesKey (readPayload messages e payload) := by
  unfold readPayload
  refine .bind (.mapError (fun _ => nofun) _) fun bytes => ?_
  refine .bind (.mapError (fun _ => nofun) _) fun document => ?_
  split
  · exact .error nofun
  · refine .bind ?_ fun _ => neverBlamesKey_claimsOf document
    rw [RegisteredClaims.judge_eq_firstFault]
    refine .firstFault ?_
    simp [Expectation.expired, Expectation.premature, Expectation.wrongIssuer,
      Expectation.wrongAudience]

theorem neverBlamesKey_wholeNumber (claims : Claims) (name : String) :
    NeverBlamesKey (Expectation.wholeNumber claims name) := by
  unfold Expectation.wholeNumber
  repeat' split
  all_goals first | exact .ok _ | exact .error nofun

theorem neverBlamesKey_judgeClaims (e : Expectation) (claims : Claims) :
    NeverBlamesKey (e.judgeClaims claims) := by
  rw [Expectation.judgeClaims_eq_checks]
  refine .bind (neverBlamesKey_wholeNumber claims "exp") fun exp => ?_
  refine .bind (.firstFault (by simp [Expectation.expired])) fun _ => ?_
  refine .bind (neverBlamesKey_wholeNumber claims "nbf") fun nbf => ?_
  refine .firstFault ?_
  simp [Expectation.premature, Expectation.wrongIssuer, Expectation.wrongAudience]

theorem neverBlamesKey_readPaddedPayload (e : Expectation) (payload : String) :
    NeverBlamesKey (readPaddedPayload e payload) := by
  unfold readPaddedPayload
  refine .bind (.mapError (fun _ => nofun) _) fun bytes => ?_
  refine .bind (.mapError (fun _ => nofun) _) fun document => ?_
  refine .bind (neverBlamesKey_claimsOf document) fun claims => ?_
  exact .bind (neverBlamesKey_judgeClaims e claims) fun _ => .ok claims

theorem checkSignature_ne_weakKey (token : ParsedToken) (key : KeyMaterial) (signature : String)
    (bits required : Nat) :
    checkSignature token key signature ≠ .error (.key (.weakKey bits required)) := by
  intro h
  rcases (Attempt.bind_eq_error_iff _ _ _).mp h with h | ⟨verdict, -, h⟩
  · obtain ⟨e, -, he⟩ := (Attempt.mapError_eq_error_iff _ _ _).mp h
    cases e <;> exact nomatch he
  · cases verdict <;> exact nomatch h

/-- Once there is a key, nothing calls it weak. -/
theorem accept_ne_weakKey (messages : Json.FormMessages) (e : Expectation) (token : ParsedToken)
    (key : KeyMaterial) (bits required : Nat) :
    accept messages e token key ≠ .error (.key (.weakKey bits required)) := by
  -- both readings check the signature first and end in what the payload gives
  have hsequence (signature : String) {read : Except VerificationError Claims}
      (hread : NeverBlamesKey read) :
      (checkSignature token key signature >>= fun _ => Attempt.ofExcept read) ≠
        .error (.key (.weakKey bits required)) := by
    intro h
    rcases (Attempt.bind_eq_error_iff _ _ _).mp h with h | ⟨_, -, h⟩
    · exact checkSignature_ne_weakKey token key signature bits required h
    · exact hread _ ((Attempt.ofExcept_eq_error_iff read _).mp h) bits required rfl
  unfold accept
  split
  · exact hsequence _ (neverBlamesKey_readPaddedPayload e token.payload)
  · split
    · exact hsequence _ (neverBlamesKey_readPayload messages e token.payload)
    · exact nofun

end SignedVerifier

/-- Only the family of secrets has a least number of bits. -/
theorem Algorithm.family_eq_hmac {algorithm : Algorithm} {bits : Nat}
    (h : algorithm.requiredSecretBits? = some bits) : algorithm.family = .hmac := by
  cases algorithm with
  | hs256 | hs384 | hs512 => rfl
  | _ => cases h

/-- The secret for a header: the one that is held, or the one that the search for a key gives. -/
def KeyLocator.secretFor? (l : KeyLocator) (header : KeyHeader) (w : Surroundings)
    (s : ProcessState) : Option (List UInt8) :=
  match l with
  | .direct (.secret secret) => some secret
  | l =>
    match (l.locate header w s).1.1 with
    | .ok (.secret secret) => some secret
    | _ => none

theorem KeyLocator.secretFor?_of_locate {l : KeyLocator} {header : KeyHeader} {w : Surroundings}
    {s : ProcessState} {secret : List UInt8}
    (h : (l.locate header w s).1.1 = .ok (.secret secret)) :
    l.secretFor? header w s = some secret := by
  unfold secretFor?
  split
  · next held =>
    obtain ⟨hmaterial, -⟩ := (DirectKey.locate_eq_ok_iff (.secret held) header _).mp h
    cases hmaterial
    rfl
  · rw [h]

namespace SignedVerifier

/-- A token whose algorithm takes a secret is accepted only under a secret. If the verifier holds
that itself, the secret has the bits that the algorithm asks for. A secret with fewer bits gives the
error of a weak key exactly when it is held so: one from a published set, loaded, cached or
discovered, never does. -/
theorem weak_secret_refused_iff (v : SignedVerifier) (raw : String) (w : Surroundings)
    (s : ProcessState) (token : ParsedToken) (required : Nat)
    (hparse : ParsedToken.parse v.allowPadding raw = .ok token)
    (hrequired : token.header.algorithm.requiredSecretBits? = some required) :
    (∀ claims, (v.verify raw w s).1.1 = .ok claims →
      ∃ secret, v.locator.secretFor? token.header w s = some secret ∧
        (v.locator = .direct (.secret secret) → required ≤ secret.length * 8)) ∧
    (∀ secret, v.locator.secretFor? token.header w s = some secret →
      secret.length * 8 < required →
      ((v.verify raw w s).1.1 = .error (.key (.weakKey (secret.length * 8) required)) ↔
        v.locator = .direct (.secret secret))) := by
  rcases hlocate : v.locator.locate token.header w s with ⟨⟨found, locator⟩, s'⟩
  have hfound : (v.locator.locate token.header w s).1.1 = found := by rw [hlocate]
  rw [verify_of_locate hparse hlocate]
  constructor
  · intro claims hclaims
    cases found with
    | error e => exact nomatch hclaims
    | ok key =>
      obtain ⟨hverifies, -⟩ := signed_and_meets_of_accept hparse hclaims
      obtain ⟨bytes, -, hsigns⟩ := (KeyMaterial.verifies_eq_true_iff _ _ _ _).mp hverifies
      -- the signature was checked with the found key, which is of the family of the algorithm
      have hfamily : key.family = .hmac :=
        hsigns.family_eq.trans (Algorithm.family_eq_hmac hrequired)
      cases key with
      | secret secret =>
        refine ⟨secret, KeyLocator.secretFor?_of_locate hfound, ?_⟩
        intro hheld
        rw [hheld] at hfound
        obtain ⟨-, hlong⟩ := (DirectKey.locate_eq_ok_iff _ _ _).mp hfound
        exact hlong secret required rfl hrequired
      | _ => exact nomatch hfamily
  · intro secret hsecret hshort
    constructor
    · intro hrefused
      -- nothing calls a found key weak, so it was the search that did
      cases found with
      | ok key => exact absurd hrefused (accept_ne_weakKey _ _ token key _ _)
      | error e =>
        cases hrefused
        -- a locator of another kind gave no secret if it gave this error
        have hown : ∀ name asked answer, v.locator ≠ .custom name asked answer := by
          intro name asked answer hcustom
          rw [hcustom] at hsecret hfound
          simp only [KeyLocator.secretFor?, hfound] at hsecret
          exact nomatch hsecret
        obtain ⟨held, hheld, -⟩ := (KeyLocator.locate_eq_weakKey_iff _ hown _ _ _ _ _).mp hfound
        rw [hheld] at hsecret ⊢
        cases hsecret
        rfl
    · intro hheld
      have hown : ∀ name asked answer, v.locator ≠ .custom name asked answer := by
        rw [hheld]
        exact fun _ _ _ => nofun
      have hweak := (KeyLocator.locate_eq_weakKey_iff v.locator hown token.header w s
        (secret.length * 8) required).mpr ⟨secret, hheld, rfl, hrequired, hshort⟩
      cases hfound.symm.trans hweak
      rfl

/-- A verifier that takes its keys from a set in a file. -/
def fileReader : SignedVerifier where
  locator := .published (.file "keys.json")

/-- A process with a file that publishes a secret of six bytes. -/
def shelf : Surroundings :=
  { quiet with files := { entries := [(["keys.json"], .file (Text.Utf8.encode
      "\x7b\"keys\":[\x7b\"kty\":\"oct\",\"kid\":\"k\",\"k\":\"c2VjcmV0\"\x7d]\x7d"))] } }

/-- A token without claims that is signed with the secret of six bytes. -/
def slight : String :=
  "eyJhbGciOiJIUzI1NiIsImtpZCI6ImsifQ.e30.rd69mD9tVKLgvfUeKXljcdPeCIvykn8R9erAR5pRUXo"

def slightToken : ParsedToken :=
  .ofSegments slight "eyJhbGciOiJIUzI1NiIsImtpZCI6ImsifQ" "e30"
    "rd69mD9tVKLgvfUeKXljcdPeCIvykn8R9erAR5pRUXo"
    (.object [("alg", .string "HS256"), ("kid", .string "k")]) .hs256

theorem split_slight : Text.split '.' slight = ["eyJhbGciOiJIUzI1NiIsImtpZCI6ImsifQ", "e30",
    "rd69mD9tVKLgvfUeKXljcdPeCIvykn8R9erAR5pRUXo"] := by
  cbv

theorem unpadded_slight : slight.contains '=' = false :=
  ParsedToken.contains_padding_eq_false
    (Text.not_mem_of_split_three split_slight (by decide) (by simp) (by simp) (by simp))

theorem parse_slight : ParsedToken.parse false slight = .ok slightToken := by
  refine (ParsedToken.parse_eq_ok_iff false slight slightToken).mpr ?_
  refine ⟨_, _, _, _, _, split_slight, ?_, by cbv, by cbv, by decide, rfl⟩
  rw [unpadded_slight]
  intro h
  cases h

theorem length_slight : (Text.Utf8.encode "secret").length * 8 = 48 := by
  cbv

set_option maxRecDepth 100000 in
theorem locate_slight : (fileReader.locator.locate slightToken.header shelf {}).1.1 =
    .ok (.secret (Text.Utf8.encode "secret")) := by
  cbv

theorem secretFor?_slight :
    fileReader.locator.secretFor? slightToken.header shelf {} =
      some (Text.Utf8.encode "secret") :=
  KeyLocator.secretFor?_of_locate locate_slight

/-- The secret of six bytes is not called weak, since it is published. -/
theorem weak_secret_refused_iff_slight :
    ParsedToken.parse fileReader.allowPadding slight = .ok slightToken ∧
      slightToken.header.algorithm.requiredSecretBits? = some 256 ∧
      fileReader.locator.secretFor? slightToken.header shelf {} =
        some (Text.Utf8.encode "secret") ∧
      (Text.Utf8.encode "secret").length * 8 < 256 ∧
      (fileReader.verify slight shelf {}).1.1 ≠
        .error (.key (.weakKey ((Text.Utf8.encode "secret").length * 8) 256)) := by
  have hshort := length_slight.trans_lt (by decide : 48 < 256)
  obtain ⟨-, hrefused⟩ :=
    weak_secret_refused_iff fileReader slight shelf {} slightToken 256 parse_slight rfl
  refine ⟨parse_slight, rfl, secretFor?_slight, hshort, fun h => ?_⟩
  have hheld := (hrefused _ secretFor?_slight hshort).mp h
  cases hheld

set_option maxRecDepth 100000 in
/-- A published secret of 48 bits is accepted for an algorithm that asks for 256. -/
theorem verify_slight :
    slightToken.header.algorithm.requiredSecretBits? = some 256 ∧
      fileReader.locator.secretFor? slightToken.header shelf {} =
        some (Text.Utf8.encode "secret") ∧
      (Text.Utf8.encode "secret").length * 8 = 48 ∧
      (fileReader.verify slight shelf {}).1.1 = .ok ⟨[]⟩ := by
  have hverifies : KeyMaterial.verifies (.secret (Text.Utf8.encode "secret")) .hs256
      slightToken.signedText slightToken.signature = .ok true :=
    KeyMaterial.verifies_of_hmac (by have := length_slight; omega) (by decide +kernel)
  have hread : readPayload {} (fileReader.expectation shelf.now) "e30" = .ok ⟨[]⟩ := by cbv
  have hpadded : slightToken.padded = false :=
    (ParsedToken.padded_eq_of_parse parse_slight).trans unpadded_slight
  refine ⟨rfl, secretFor?_slight, length_slight, ?_⟩
  refine (verify_eq_ok_iff fileReader slight shelf {} ⟨[]⟩).mpr
    ⟨slightToken, _, parse_slight, locate_slight, ?_⟩
  exact (accept_unpadded_eq_ok_iff _ _ slightToken _ ⟨[]⟩ hpadded).mpr ⟨by decide, hverifies, hread⟩

end SignedVerifier

end BearerAuth

import BearerAuth.Proofs.Text.Segments
import BearerAuth.Proofs.Text.Trimming
import BearerAuth.Proofs.Token.Payload
import BearerAuth.Proofs.Token.Signature

namespace BearerAuth

open Outcome

namespace ParsedToken

theorem segments_eq_ok_iff (raw header payload signature : String) :
    segments raw = .ok (header, payload, signature) ↔
      Text.split '.' raw = [header, payload, signature] := by
  unfold segments
  split
  · next hsplit => rw [hsplit]; simp
  · next hsplit => rw [hsplit]; simp
  · next hother _ =>
    constructor
    · exact nofun
    · intro h
      exact absurd h (hother _ _ _)

/-- An algorithm is read from a header exactly when its name is the header's `alg`. -/
theorem readAlgorithm_eq_ok_iff (header : Json) (algorithm : Algorithm) :
    readAlgorithm header = .ok algorithm ↔
      header.member? "alg" = some (.string algorithm.name) := by
  unfold readAlgorithm
  constructor
  · intro h
    split at h
    · exact nomatch h
    · next name hname =>
      split at h
      · exact nomatch h
      · split at h
        · next hfound =>
          cases h
          have hsame : (algorithm.name == name) = true :=
            List.find?_some (p := fun a : Algorithm => a.name == name) hfound
          obtain ⟨value, hvalue, htext⟩ := Option.bind_eq_some_iff.mp hname
          rw [hvalue, (Json.string?_eq_some_iff value name).mp htext, beq_iff_eq.mp hsame]
        · exact nomatch h
  · intro h
    have hnone : Text.equalsIgnoringCase algorithm.name "none" = false := by
      cases algorithm <;> decide
    rw [h]
    simp only [Option.bind_some, Json.string?, hnone, Bool.false_eq_true, ↓reduceIte,
      Algorithm.ofName?_name]

/-- The token that three segments make, the first of which is a document and names an algorithm. -/
def ofSegments (raw header payload signature : String) (document : Json) (algorithm : Algorithm) :
    ParsedToken :=
  ⟨⟨(document.canonical.member? "kid").bind Json.string?, algorithm⟩, document,
    header ++ "." ++ payload, payload, signature, raw.contains '='⟩

/-- How three segments are taken apart where their padding is no matter. -/
theorem parse_of_split {allowPadding : Bool} {raw header payload signature : String}
    (hsplit : Text.split '.' raw = [header, payload, signature])
    (hpad : raw.contains '=' = true → allowPadding = true) :
    parse allowPadding raw = (do
      let document ← readDocument header
      let algorithm ← readAlgorithm document.canonical
      if signature.isEmpty then .error (.malformed "signed JWT has no signature")
      else .ok (ofSegments raw header payload signature document algorithm)) := by
  have hguard : (raw.contains '=' && !allowPadding) = false := by
    cases hc : raw.contains '=' with
    | false => rfl
    | true => rw [hpad hc]; rfl
  unfold parse
  rw [(segments_eq_ok_iff raw header payload signature).mpr hsplit]
  simp only [hguard]
  cases hdoc : readDocument header with
  | error e => simp [bind, Except.bind, hdoc]
  | ok document =>
    cases halg : readAlgorithm document.canonical with
    | error e => simp [bind, Except.bind, hdoc, halg]
    | ok algorithm =>
      cases hempty : signature.isEmpty <;>
        simp [bind, Except.bind, hdoc, halg, hempty, throw, throwThe, MonadExceptOf.throw, pure,
          Except.pure, ofSegments, toString]

/-- A token can be taken apart exactly when it has three segments of which the first names a
supported algorithm and the last is not empty, and padding is allowed if there is any. -/
theorem parse_eq_ok_iff (allowPadding : Bool) (raw : String) (token : ParsedToken) :
    parse allowPadding raw = .ok token ↔
      ∃ header payload signature document algorithm,
        Text.split '.' raw = [header, payload, signature] ∧
        (raw.contains '=' = true → allowPadding = true) ∧
        readDocument header = .ok document ∧
        readAlgorithm document.canonical = .ok algorithm ∧ signature.isEmpty = false ∧
        token = ofSegments raw header payload signature document algorithm := by
  constructor
  · intro h
    have hcopy := h
    -- the segments and the guard on padding come first; the equation above gives the rest
    unfold parse at h
    rw [bind_eq_ok_iff] at h
    obtain ⟨⟨header, payload, signature⟩, hsegments, h⟩ := h
    have hsplit := (segments_eq_ok_iff raw header payload signature).mp hsegments
    have hpad : raw.contains '=' = true → allowPadding = true := by
      intro hc
      by_contra hno
      rw [Bool.not_eq_true] at hno
      simp only [hc, hno] at h
      exact nomatch h
    rw [parse_of_split hsplit hpad, bind_eq_ok_iff] at hcopy
    obtain ⟨document, hdocument, hcopy⟩ := hcopy
    rw [bind_eq_ok_iff] at hcopy
    obtain ⟨algorithm, halgorithm, hcopy⟩ := hcopy
    cases hempty : signature.isEmpty with
    | true => rw [hempty] at hcopy; exact nomatch hcopy
    | false =>
      rw [hempty] at hcopy
      exact ⟨header, payload, signature, document, algorithm, hsplit, hpad, hdocument, halgorithm,
        hempty, (Except.ok.inj hcopy).symm⟩
  · rintro ⟨header, payload, signature, document, algorithm, hsplit, hpad, hdocument, halgorithm,
      hempty, rfl⟩
    rw [parse_of_split hsplit hpad, hdocument]
    change (readAlgorithm document.canonical >>= _) = _
    rw [halgorithm]
    change (if signature.isEmpty then _ else _) = _
    rw [hempty]
    rfl

theorem contains_padding_eq_false {raw : String} (h : '=' ∉ raw.toList) :
    raw.contains '=' = false := by
  rw [String.contains_char_eq]
  exact decide_eq_false h

theorem contains_append_padding (raw : String) : (raw ++ "=").contains '=' = true := by
  rw [String.contains_char_eq, decide_eq_true_eq, String.toList_append]
  exact List.mem_append_right _ (List.mem_singleton_self _)

theorem not_padded_of_parse {allowPadding : Bool} {raw : String} {token : ParsedToken}
    (h : parse allowPadding raw = .ok token) (hpad : '=' ∉ raw.toList) :
    token.padded = false ∧ '=' ∉ token.payload.toList ∧ '=' ∉ token.signature.toList := by
  obtain ⟨header, payload, signature, _, _, hsplit, -, -, -, -, rfl⟩ :=
    (parse_eq_ok_iff allowPadding raw token).mp h
  refine ⟨contains_padding_eq_false hpad, ?_, ?_⟩
  · exact fun hc => hpad (Text.mem_of_mem_split_three hsplit (Or.inr (Or.inl hc)))
  · exact fun hc => hpad (Text.mem_of_mem_split_three hsplit (Or.inr (Or.inr hc)))

theorem padded_eq_of_parse {allowPadding : Bool} {raw : String} {token : ParsedToken}
    (h : parse allowPadding raw = .ok token) : token.padded = raw.contains '=' := by
  obtain ⟨_, _, _, _, _, _, _, _, _, _, rfl⟩ := (parse_eq_ok_iff allowPadding raw token).mp h
  rfl

/-! The header of a token that is signed by the shortest digest and says no more. -/

theorem readDocument_hs256 : readDocument "eyJhbGciOiJIUzI1NiJ9" =
    .ok (.object [("alg", .string "HS256")]) := by
  decide +kernel

theorem readAlgorithm_hs256 :
    readAlgorithm (Json.canonical (.object [("alg", .string "HS256")])) = .ok .hs256 := by
  rw [readAlgorithm_eq_ok_iff]
  decide

end ParsedToken

namespace SignedVerifier

theorem withoutPadding_eq_self {signature : String} (h : '=' ∉ signature.toList) :
    withoutPadding signature = signature := by
  have hnone : ∀ c ∈ signature.toList, (c == '=') = false := by
    intro c hc
    exact beq_eq_false_iff_ne.mpr (fun he => h (he ▸ hc))
  rw [withoutPadding, Text.dropEndWhile_eq_self hnone, String.ofList_toList]

theorem withoutPadding_append {signature : String} (h : '=' ∉ signature.toList) :
    withoutPadding (signature ++ "=") = signature := by
  have hdrop : Text.dropEndWhile (· == '=') (signature ++ "=").toList =
      Text.dropEndWhile (· == '=') signature.toList := by
    rw [String.toList_append]
    exact List.rdropWhile_concat_pos (· == '=') signature.toList '=' rfl
  rw [withoutPadding, hdrop]
  exact withoutPadding_eq_self h

theorem checkSignature_eq_ok_iff (token : ParsedToken) (key : KeyMaterial) (signature : String)
    (u : Unit) :
    checkSignature token key signature = .ok u ↔
      key.verifies token.header.algorithm token.signedText signature = .ok true := by
  unfold checkSignature
  rw [Attempt.bind_eq_ok_iff]
  simp only [Attempt.mapError_eq_ok_iff]
  constructor
  · rintro ⟨verdict, hverdict, h⟩
    cases verdict with
    | true => exact hverdict
    | false => exact nomatch h
  · intro h
    exact ⟨true, h, rfl⟩

theorem accept_unpadded_eq_ok_iff (messages : Json.FormMessages) (e : Expectation)
    (token : ParsedToken) (key : KeyMaterial) (claims : Claims) (hpad : token.padded = false) :
    accept messages e token key = .ok claims ↔
      HeaderForm.accepts token.document = true ∧
      key.verifies token.header.algorithm token.signedText token.signature = .ok true ∧
      readPayload messages e token.payload = .ok claims := by
  unfold accept
  rw [hpad, if_neg Bool.false_ne_true]
  by_cases hform : HeaderForm.accepts token.document = true
  · rw [if_pos hform, Attempt.bind_eq_ok_iff]
    simp only [Attempt.ofExcept_eq_ok_iff, checkSignature_eq_ok_iff]
    exact ⟨fun ⟨_, hsigned, hread⟩ => ⟨hform, hsigned, hread⟩,
      fun ⟨_, hsigned, hread⟩ => ⟨(), hsigned, hread⟩⟩
  · rw [if_neg hform]
    exact ⟨nofun, fun h => absurd h.1 hform⟩

theorem accept_padded_eq_ok_iff (messages : Json.FormMessages) (e : Expectation)
    (token : ParsedToken) (key : KeyMaterial) (claims : Claims) (hpad : token.padded = true) :
    accept messages e token key = .ok claims ↔
      key.verifies token.header.algorithm token.signedText (withoutPadding token.signature) =
        .ok true ∧
      ParsedToken.Encodes token.payload claims ∧ e.judgeClaims claims = .ok () := by
  unfold accept
  rw [hpad, if_pos rfl, Attempt.bind_eq_ok_iff]
  simp only [Attempt.ofExcept_eq_ok_iff, checkSignature_eq_ok_iff, readPaddedPayload_eq_ok_iff]
  exact ⟨fun ⟨_, h⟩ => h, fun h => ⟨(), h⟩⟩

/-- The answer about a token that can be taken apart, once the search for its key has ended. -/
theorem verify_of_locate {v : SignedVerifier} {raw : String} {token : ParsedToken}
    {w : Surroundings} {s s' : ProcessState} {found : Except KeyError KeyMaterial}
    {locator : KeyLocator} (hparse : ParsedToken.parse v.allowPadding raw = .ok token)
    (hlocate : v.locator.locate token.header w s = ((found, locator), s')) :
    v.verify raw w s =
      ((match found with
        | .error e => .error (.key e)
        | .ok key => accept w.formMessages (v.expectation w.now) token key,
        { v with locator }), s') := by
  unfold verify
  simp only [hparse, Run.bind_apply, hlocate]
  cases found <;> rfl

theorem verify_of_locate_error {v : SignedVerifier} {raw : String} {token : ParsedToken}
    {w : Surroundings} {s s' : ProcessState} {e : KeyError} {locator : KeyLocator}
    (hparse : ParsedToken.parse v.allowPadding raw = .ok token)
    (hlocate : v.locator.locate token.header w s = ((.error e, locator), s')) :
    v.verify raw w s = ((.error (.key e), { v with locator }), s') := by
  rw [verify_of_locate hparse hlocate]

theorem verify_of_parse_error {v : SignedVerifier} {raw : String} {e : VerificationError}
    (w : Surroundings) (s : ProcessState)
    (hparse : ParsedToken.parse v.allowPadding raw = .error e) :
    v.verify raw w s = ((.error e, v), s) := by
  unfold verify
  simp only [hparse]
  rfl

/-- A token is accepted exactly when it can be taken apart, there is a key for its header, and it
is accepted under that key at the time at which it is judged. -/
theorem verify_eq_ok_iff (v : SignedVerifier) (raw : String) (w : Surroundings) (s : ProcessState)
    (claims : Claims) :
    (v.verify raw w s).1.1 = .ok claims ↔
      ∃ token key, ParsedToken.parse v.allowPadding raw = .ok token ∧
        (v.locator.locate token.header w s).1.1 = .ok key ∧
        accept w.formMessages (v.expectation w.now) token key = .ok claims := by
  cases hparse : ParsedToken.parse v.allowPadding raw with
  | error e =>
    rw [verify_of_parse_error w s hparse]
    exact ⟨nofun, fun ⟨_, _, h, _⟩ => nomatch h⟩
  | ok token =>
    rcases hlocate : v.locator.locate token.header w s with ⟨⟨found, locator⟩, s'⟩
    rw [verify_of_locate hparse hlocate]
    constructor
    · intro h
      cases found with
      | error e => exact nomatch h
      | ok key => exact ⟨token, key, rfl, by rw [hlocate], h⟩
    · rintro ⟨_, key, htoken, hkey, h⟩
      cases htoken
      rw [hlocate] at hkey
      cases hkey
      exact h

/-- Claims that meet an expectation, by the judgement that a token with or without padding comes
under. -/
def Meets (e : Expectation) (padded : Bool) (claims : Claims) : Prop :=
  match padded with
  | true => e.judgeClaims claims = .ok ()
  | false => (RegisteredClaims.ofClaims claims).judge e = .ok ()

/-- A token that is accepted under a key, with padding or without, is signed by it and has claims
that meet the expectation. -/
theorem signed_and_meets_of_accept {allowPadding : Bool} {raw : String} {token : ParsedToken}
    {messages : Json.FormMessages} {e : Expectation} {key : KeyMaterial} {claims : Claims}
    (hparse : ParsedToken.parse allowPadding raw = .ok token)
    (h : accept messages e token key = .ok claims) :
    key.verifies token.header.algorithm token.signedText (withoutPadding token.signature) =
        .ok true ∧
      ParsedToken.Encodes token.payload claims ∧ Meets e token.padded claims := by
  cases hpadded : token.padded with
  | true => exact (accept_padded_eq_ok_iff messages e token key claims hpadded).mp h
  | false =>
    have hpad : '=' ∉ raw.toList := by
      rw [ParsedToken.padded_eq_of_parse hparse, String.contains_char_eq] at hpadded
      exact of_decide_eq_false hpadded
    obtain ⟨-, hpayload, hsignature⟩ := ParsedToken.not_padded_of_parse hparse hpad
    obtain ⟨-, hsigned, hread⟩ :=
      (accept_unpadded_eq_ok_iff messages e token key claims hpadded).mp h
    refine ⟨?_, encodes_of_readPayload hpayload hread⟩
    -- there is no padding to take off the signature
    rw [withoutPadding_eq_self hsignature]
    exact hsigned

/-- The claims of an accepted token meet the expectation at the time at which it is judged. -/
theorem encodes_and_meets_of_verify {v : SignedVerifier} {raw : String} {w : Surroundings}
    {s : ProcessState} {claims : Claims} (h : (v.verify raw w s).1.1 = .ok claims) :
    ∃ header payload signature, Text.split '.' raw = [header, payload, signature] ∧
      ParsedToken.Encodes payload claims ∧
      Meets (v.expectation w.now) (raw.contains '=') claims := by
  obtain ⟨token, key, hparse, -, haccept⟩ := (verify_eq_ok_iff v raw w s claims).mp h
  obtain ⟨-, hencodes, hmeets⟩ := signed_and_meets_of_accept hparse haccept
  rw [ParsedToken.padded_eq_of_parse hparse] at hmeets
  obtain ⟨header, payload, signature, document, algorithm, hsplit, -, -, -, -, rfl⟩ :=
    (ParsedToken.parse_eq_ok_iff v.allowPadding raw token).mp hparse
  exact ⟨header, payload, signature, hsplit, hencodes, hmeets⟩

end SignedVerifier

end BearerAuth

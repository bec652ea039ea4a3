import BearerAuth.Proofs.Token.Agreement

namespace BearerAuth

namespace ParsedToken

/-- A token with one more padding character after its signature. -/
def pad (t : ParsedToken) : ParsedToken :=
  { t with signature := t.signature ++ "=", padded := true }

theorem segments_of_length {raw : String} {count : Nat}
    (hcount : (Text.split '.' raw).length = count) (h : count ≠ 3) :
    segments raw = .error (if count = 5
      then .unsupported "encrypted JWTs (JWE) are not supported"
      else .malformed s!"expected 3 dot separated segments but found {count}") := by
  unfold segments
  split
  · next hsplit =>
    rw [hsplit] at hcount
    exact absurd hcount.symm h
  · next hsplit =>
    rw [hsplit] at hcount
    have hfive : count = 5 := hcount.symm
    rw [if_pos hfive]
  · next hfive =>
    have hnot : count ≠ 5 := by
      rintro rfl
      match hsplit : Text.split '.' raw, hcount with
      | [a, b, c, d, e], _ => exact hfive a b c d e hsplit
    rw [if_neg hnot, ← hcount]

theorem split_ne_of_signature {raw a b c header payload : String}
    (h : Text.split '.' raw = [a, b, c]) (hc : c ≠ "") :
    Text.split '.' raw ≠ [header, payload, ""] := by
  rw [h]
  rintro ⟨⟩
  exact hc rfl

theorem parse_of_segments_error {allowPadding : Bool} {raw : String} {e : VerificationError}
    (h : segments raw = .error e) : parse allowPadding raw = .error e := by
  unfold parse
  rw [h]
  rfl

/-- Padding the signature of a token pads it and changes nothing else. -/
theorem parse_append_padding {raw : String}
    (hsignature : ∀ header payload, Text.split '.' raw ≠ [header, payload, ""]) :
    parse true (raw ++ "=") = (parse true raw).map pad := by
  have hdot : '.' ∉ "=".toList := by decide
  by_cases hlength : (Text.split '.' raw).length = 3
  · match hsplit : Text.split '.' raw, hlength with
    | [header, payload, signature], _ =>
      have hsplit' := Text.split_append_eq_three hsplit hdot
      have hempty : signature.isEmpty = false := by
        rw [String.isEmpty_eq_false_iff]
        rintro rfl
        exact hsignature header payload hsplit
      have hempty' : (signature ++ "=").isEmpty = false := by
        rw [String.isEmpty_eq_false_iff]
        simp
      rw [parse_of_split hsplit (fun _ => rfl), parse_of_split hsplit' (fun _ => rfl), hempty,
        hempty']
      cases readDocument header with
      | error e => rfl
      | ok document =>
        change (readAlgorithm document.canonical >>= _) =
          Except.map pad (readAlgorithm document.canonical >>= _)
        cases readAlgorithm document.canonical with
        | error e => rfl
        | ok algorithm =>
          have hpadded := contains_append_padding raw
          simp [bind, Except.bind, Except.map, ofSegments, pad, hpadded]
  · have hsame : (Text.split '.' (raw ++ "=")).length = (Text.split '.' raw).length :=
      Text.length_split_append hdot
    rw [parse_of_segments_error (segments_of_length rfl hlength),
      parse_of_segments_error (segments_of_length hsame hlength)]
    rfl

/-- The claims that a payload encodes are determined. -/
theorem Encodes.unique {payload : String} {c d : Claims} (hc : Encodes payload c)
    (hd : Encodes payload d) : c = d := by
  obtain ⟨bytes, hbytes, hread⟩ := hc
  obtain ⟨bytes', hbytes', hread'⟩ := hd
  cases hbytes.symm.trans hbytes'
  obtain ⟨members⟩ := c
  obtain ⟨members'⟩ := d
  cases hread.symm.trans hread'
  rfl

end ParsedToken

namespace SignedVerifier

/-- The padded token has the signature of the token, and its payload is read the other way. -/
theorem accept_pad (messages : Json.FormMessages) (e : Expectation) (token : ParsedToken)
    (key : KeyMaterial) (hsignature : '=' ∉ token.signature.toList) :
    accept messages e token.pad key = checkSignature token key token.signature >>= fun _ =>
      Attempt.ofExcept (readPaddedPayload e token.payload) := by
  have hpadded : token.pad.padded = true := rfl
  unfold accept
  rw [if_pos hpadded]
  change checkSignature token.pad key (withoutPadding (token.signature ++ "=")) >>= _ = _
  rw [withoutPadding_append hsignature]
  rfl

/-- A token and the padded one have the same outcome under a key exactly if, where the header has
its form and the key has signed the token, both readings of the payload come to the same, and where
the header has not its form, the padded one is malformed too. -/
theorem sameOutcome_accept_pad_iff (messages : Json.FormMessages) (e : Expectation)
    {token : ParsedToken} (key : KeyMaterial) (hpadded : token.padded = false)
    (hpayload : '=' ∉ token.payload.toList) (hsignature : '=' ∉ token.signature.toList) :
    SameOutcome (accept messages e token key) (accept messages e token.pad key) ↔
      (HeaderForm.accepts token.document = true →
        key.verifies token.header.algorithm token.signedText token.signature = .ok true →
          ParsedToken.PayloadReadAlike e token.payload) ∧
      (HeaderForm.accepts token.document = false →
        ∃ message, accept messages e token.pad key = .error (.malformed message)) := by
  cases hform : HeaderForm.accepts token.document with
  | true =>
    have hplain : accept messages e token key =
        checkSignature token key token.signature >>= fun _ =>
          Attempt.ofExcept (readPayload messages e token.payload) := by
      unfold accept
      rw [hpadded, if_neg Bool.false_ne_true, if_pos hform]
    -- the same signature is checked first, so only the readings that follow can differ
    rw [accept_pad messages e token key hsignature, hplain, SameOutcome.bind_iff]
    have hreadings := sameOutcome_readPayload_iff messages e hpayload
    constructor
    · intro h
      refine ⟨fun _ hverifies => ?_, nofun⟩
      exact hreadings.mp (h () ((checkSignature_eq_ok_iff _ _ _ ()).mpr hverifies))
    · intro h u hsigned
      exact hreadings.mpr (h.1 rfl ((checkSignature_eq_ok_iff _ _ _ u).mp hsigned))
  | false =>
    have hplain : accept messages e token key =
        .error (formError (messages.header (Text.Utf8.encode token.signedText))) := by
      unfold accept
      rw [hpadded, if_neg Bool.false_ne_true, hform, if_neg Bool.false_ne_true]
    -- only the token without padding has its header read once more
    rw [hplain, formError, SameOutcome.malformed_iff]
    exact ⟨fun h => ⟨nofun, fun _ => h⟩, fun h => h.2 rfl⟩

/-- If a token and the padded one are accepted, then with the claims that the one payload encodes. -/
theorem claims_eq_of_append_padding {v : SignedVerifier} {raw : String} {w : Surroundings}
    {s : ProcessState} {c d : Claims} (hc : (v.verify raw w s).1.1 = .ok c)
    (hd : (v.verify (raw ++ "=") w s).1.1 = .ok d) : c = d := by
  obtain ⟨header, payload, signature, hsplit, hencodes, -⟩ := encodes_and_meets_of_verify hc
  obtain ⟨header', payload', signature', hsplit', hencodes', -⟩ := encodes_and_meets_of_verify hd
  rw [Text.split_append_eq_three hsplit (by decide)] at hsplit'
  cases hsplit'
  exact hencodes.unique hencodes'

/-- Where padding is allowed, a token and the same token with one padding character more leave the
process and what the verifier has learned alike, and if both are accepted then with the same claims.
They have the same outcome exactly if, once the token is taken apart and its key is found, one of
two things holds. Either the header has its form, and both readings come to the same for the payload
if the key has signed the token; or it has not, so that the token is malformed, and the padded one
is malformed too. -/
theorem verify_append_padding (v : SignedVerifier) (raw : String) (w : Surroundings)
    (s : ProcessState) (hallow : v.allowPadding = true) (hpad : '=' ∉ raw.toList)
    (hsignature : ∀ header payload, Text.split '.' raw ≠ [header, payload, ""]) :
    (v.verify (raw ++ "=") w s).2 = (v.verify raw w s).2 ∧
    (v.verify (raw ++ "=") w s).1.2 = (v.verify raw w s).1.2 ∧
    (∀ c d, (v.verify raw w s).1.1 = .ok c → (v.verify (raw ++ "=") w s).1.1 = .ok d → c = d) ∧
    (SameOutcome (v.verify raw w s).1.1 (v.verify (raw ++ "=") w s).1.1 ↔
      ∀ token key, ParsedToken.parse true raw = .ok token →
        (v.locator.locate token.header w s).1.1 = .ok key →
          (HeaderForm.accepts token.document = true →
            key.verifies token.header.algorithm token.signedText token.signature = .ok true →
              ParsedToken.PayloadReadAlike (v.expectation w.now) token.payload) ∧
          (HeaderForm.accepts token.document = false →
            ∃ message, (v.verify (raw ++ "=") w s).1.1 = .error (.malformed message))) := by
  have hclaims : ∀ c d, (v.verify raw w s).1.1 = .ok c →
      (v.verify (raw ++ "=") w s).1.1 = .ok d → c = d :=
    fun _ _ => claims_eq_of_append_padding
  have happend := ParsedToken.parse_append_padding hsignature
  cases hparse : ParsedToken.parse true raw with
  | error e =>
    have hplain : ParsedToken.parse v.allowPadding raw = .error e := by rw [hallow, hparse]
    have hpadded : ParsedToken.parse v.allowPadding (raw ++ "=") = .error e := by
      rw [hallow, happend, hparse]
      rfl
    rw [verify_of_parse_error w s hplain, verify_of_parse_error w s hpadded]
    exact ⟨rfl, rfl, nofun, iff_of_true (.refl _) nofun⟩
  | ok token =>
    -- both tokens ask for the key of one header, so all that can differ is the end
    rcases hlocate : v.locator.locate token.header w s with ⟨⟨found, locator⟩, s'⟩
    have hplain : ParsedToken.parse v.allowPadding raw = .ok token := by rw [hallow, hparse]
    have hpadded : ParsedToken.parse v.allowPadding (raw ++ "=") = .ok token.pad := by
      rw [hallow, happend, hparse]
      rfl
    have hlocate' : v.locator.locate token.pad.header w s = ((found, locator), s') := hlocate
    have hverify := verify_of_locate hplain hlocate
    have hverify' := verify_of_locate hpadded hlocate'
    refine ⟨by rw [hverify, hverify'], by rw [hverify, hverify'], hclaims, ?_⟩
    rw [hverify, hverify']
    cases found with
    | error e =>
      refine iff_of_true (.refl _) ?_
      rintro _ key ⟨⟩ hkey
      rw [hlocate] at hkey
      exact nomatch hkey
    | ok key =>
      obtain ⟨hpadded, hpayload, hsigned⟩ := ParsedToken.not_padded_of_parse hparse hpad
      refine (sameOutcome_accept_pad_iff w.formMessages (v.expectation w.now) key hpadded hpayload
        hsigned).trans ?_
      constructor
      · rintro h _ key' ⟨⟩ hkey
        rw [hlocate] at hkey
        cases hkey
        exact h
      · intro h
        exact h token key rfl (by rw [hlocate])

/-- The claims of the token for the application are judged alike. -/
theorem judgesAlike_passClaims : (lenientHolder.expectation quiet.now).JudgesAlike passClaims := by
  have haddressed : (lenientHolder.expectation quiet.now).Addressed passClaims := by
    constructor
    · rintro issuer ⟨⟩
      exact (by decide : passClaims.get? "iss" = some (.string "idp"))
    · rintro audience ⟨⟩
      exact Or.inr ⟨[.string "app"], by decide, List.mem_singleton_self _⟩
  apply haddressed.judgesAlike
  · rintro v ⟨⟩
    exact ⟨4102444800, rfl, by decide⟩
  · exact nofun

set_option maxRecDepth 100000 in
/-- The token for the application is accepted with padding as it is without. -/
theorem verify_append_padding_pass :
    lenientHolder.allowPadding = true ∧ '=' ∉ pass.toList ∧
      (∀ header payload, Text.split '.' pass ≠ [header, payload, ""]) ∧
      (lenientHolder.verify pass quiet {}).1.1 = .ok passClaims ∧
      SameOutcome (lenientHolder.verify pass quiet {}).1.1
        (lenientHolder.verify (pass ++ "=") quiet {}).1.1 ∧
      (lenientHolder.verify (pass ++ "=") quiet {}).1.1 = .ok passClaims := by
  let payload := "eyJpc3MiOiJpZHAiLCJhdWQiOlsiYXBwIl0sImV4cCI6NDEwMjQ0NDgwMH0"
  have hsignature : ∀ header payload, Text.split '.' pass ≠ [header, payload, ""] :=
    fun _ _ => ParsedToken.split_ne_of_signature split_pass (by decide)
  have haccepted : (lenientHolder.verify pass quiet {}).1.1 = .ok passClaims :=
    verify_pass_of_expectation {} rfl rfl
  have hform : HeaderForm.accepts (.object [("alg", .string "HS256")]) = true := by decide
  have halike : ParsedToken.PayloadReadAlike (lenientHolder.expectation quiet.now) payload := by
    intro bytes document hbytes hdocument
    cases segmentBytes_pass.symm.trans hbytes
    cases document_pass.symm.trans hdocument
    refine ⟨?_, fun _ _ => judgesAlike_passClaims⟩
    intro h
    cases h
  obtain ⟨-, -, -, hsame⟩ :=
    verify_append_padding lenientHolder pass quiet {} rfl unpadded_pass hsignature
  have hboth : SameOutcome (lenientHolder.verify pass quiet {}).1.1
      (lenientHolder.verify (pass ++ "=") quiet {}).1.1 := by
    refine hsame.mpr ?_
    intro token key htoken _
    obtain ⟨header, payload', signature, document, algorithm, hsplit', -, hdocument, -, -, rfl⟩ :=
      (ParsedToken.parse_eq_ok_iff true pass token).mp htoken
    -- the token has one header, and that is of the form
    cases split_pass.symm.trans hsplit'
    cases ParsedToken.readDocument_hs256.symm.trans hdocument
    refine ⟨fun _ _ => halike, ?_⟩
    intro hnot
    cases hform.symm.trans hnot
  refine ⟨rfl, unpadded_pass, hsignature, haccepted, hboth, ?_⟩
  rw [haccepted] at hboth
  exact hboth.eq_of_ok

/-- A token whose header has a member that is no text, signed with the secret. -/
def odd : String :=
  "eyJhbGciOiJIUzI1NiIsInYiOjF9.e30.AMTymrlWKr1V_ryVFNv4Pn1spUlnX5cPW8zW8glVdQY"

set_option maxRecDepth 100000 in
/-- The token with the odd header is malformed as it is and accepted with padding. -/
theorem verify_odd :
    lenient.allowPadding = true ∧ '=' ∉ odd.toList ∧
      (∀ header payload, Text.split '.' odd ≠ [header, payload, ""]) ∧
      (∃ message, (lenient.verify odd quiet {}).1.1 = .error (.malformed message)) ∧
      (lenient.verify (odd ++ "=") quiet {}).1.1 = .ok ⟨[]⟩ := by
  let signature := "AMTymrlWKr1V_ryVFNv4Pn1spUlnX5cPW8zW8glVdQY"
  let document := Json.object [("alg", .string "HS256"), ("v", .number (.int 1))]
  let token := ParsedToken.ofSegments odd "eyJhbGciOiJIUzI1NiIsInYiOjF9" "e30" signature document
    .hs256
  have hsplit : Text.split '.' odd = ["eyJhbGciOiJIUzI1NiIsInYiOjF9", "e30", signature] := by cbv
  have hpad : '=' ∉ odd.toList :=
    Text.not_mem_of_split_three hsplit (by decide) (by simp) (by simp) (by simp [signature])
  have hsignature : ∀ header payload, Text.split '.' odd ≠ [header, payload, ""] :=
    fun _ _ => ParsedToken.split_ne_of_signature hsplit (by decide)
  refine ⟨rfl, hpad, hsignature, ?_, ?_⟩
  · have hparse : ParsedToken.parse lenient.allowPadding odd = .ok token :=
      (ParsedToken.parse_eq_ok_iff true odd token).mpr ⟨_, _, _, _, _, hsplit, fun _ => rfl,
        by cbv, by cbv, by decide, rfl⟩
    have hpadded : token.padded = false := (ParsedToken.not_padded_of_parse hparse hpad).1
    have hform : ¬ HeaderForm.accepts token.document = true := by decide
    rw [verify_of_secret quiet {} rfl length_secret.ge hparse rfl]
    unfold accept
    rw [hpadded, if_neg Bool.false_ne_true, if_neg hform]
    exact ⟨_, rfl⟩
  · have hverifies : KeyMaterial.verifies
        (.secret (Text.Utf8.encode "0123456789abcdef0123456789abcdef")) .hs256
        ("eyJhbGciOiJIUzI1NiIsInYiOjF9" ++ "." ++ "e30") signature = .ok true :=
      verifies_of_code (by decide +kernel)
    have hencodes : ParsedToken.Encodes "e30" ⟨[]⟩ := ⟨[123, 125], by cbv, by cbv⟩
    exact verify_padded_eq_ok_of_secret quiet {} rfl rfl length_secret.ge hsplit
      (by simp [signature]) (by cbv) (by cbv) hverifies hencodes rfl

end SignedVerifier

end BearerAuth

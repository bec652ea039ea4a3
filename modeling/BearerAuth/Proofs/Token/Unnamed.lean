import BearerAuth.Proofs.Key.Unnamed
import BearerAuth.Proofs.Token.Acceptance

namespace BearerAuth

/-- A token has three segments, the first of which names a supported algorithm and a key and the
last of which is not empty. -/
def ParsedToken.NamesKey (raw : String) : Prop :=
  ∃ header payload signature document algorithm id,
    Text.split '.' raw = [header, payload, signature] ∧ readDocument header = .ok document ∧
      document.canonical.member? "alg" = some (.string (Algorithm.name algorithm)) ∧
      signature.isEmpty = false ∧ document.canonical.member? "kid" = some (.string id) ∧
      Text.isBlank id = false

/-- A token that can be taken apart but cannot be used lacks the identifier of a key. -/
theorem ParsedToken.requireKeyId_of_parse {allowPadding : Bool} {raw : String}
    {token : ParsedToken} (hraw : ¬ NamesKey raw) (hparse : parse allowPadding raw = .ok token) :
    token.header.requireKeyId = .error .missingKeyId := by
  obtain ⟨header, payload, signature, document, algorithm, hsplit, -, hdocument, halgorithm,
    hsignature, rfl⟩ := (parse_eq_ok_iff allowPadding raw token).mp hparse
  rcases KeyHeader.requireKeyId_cases
    (ofSegments raw header payload signature document algorithm).header with
    ⟨id, hkeyId, hblank⟩ | hmissing
  · have hname := (readAlgorithm_eq_ok_iff document.canonical algorithm).mp halgorithm
    obtain ⟨value, hvalue, htext⟩ := Option.bind_eq_some_iff.mp hkeyId
    have hkid : document.canonical.member? "kid" = some (.string id) := by
      rw [hvalue, (Json.string?_eq_some_iff value id).mp htext]
    exact absurd ⟨header, payload, signature, document, algorithm, id, hsplit, hdocument, hname,
      hsignature, hkid, hblank⟩ hraw
  · exact hmissing

namespace SignedVerifier

variable {v : SignedVerifier} {raw : String} {token : ParsedToken} {d : DiscoveredKeys}
  {e : KeyError} {w : Surroundings} {s : ProcessState}

/-- A token that names no key is refused at once if it is known where the keys are published. -/
theorem verify_of_settled (hfetches : v.locator.Fetches) (hsettled : v.locator.IsSettled)
    (hparse : ParsedToken.parse v.allowPadding raw = .ok token)
    (hid : token.header.requireKeyId = .error e) :
    v.verify raw w s = ((.error (.key e), v), s) :=
  verify_of_locate_error hparse (v.locator.locate_of_unnamed hfetches hsettled hid w s)

/-- A token that names no key makes a provider search for its key set, if that is not known and an
attempt is permitted. -/
theorem verify_of_unsettled (hlocator : v.locator = .discovered d) (hunknown : d.keySet = none)
    (hparse : ParsedToken.parse v.allowPadding raw = .ok token)
    (hid : token.header.requireKeyId = .error e) :
    v.verify raw w s =
      match d.refusedFor? w.instant with
      | some rest => ((.error (.key (DiscoveredKeys.refusal rest)), v), s)
      | none =>
        ((match d.sought w s with
          | .error reason => .error (.key reason)
          | .ok _ => .error (.key e),
          { v with locator := .discovered { d with
            attempted := some w.instant, keySet := (d.sought w s).toOption } }),
          (d.discover w s).2) := by
  have hwhole : v.locator.locate token.header w s =
      (((d.locate token.header w s).1.1, .discovered (d.locate token.header w s).1.2),
        (d.locate token.header w s).2) := by
    rw [hlocator]
    rfl
  cases hrefused : d.refusedFor? w.instant with
  | some rest =>
    rw [DiscoveredKeys.locate_of_refused hunknown hrefused, ← hlocator] at hwhole
    exact verify_of_locate_error hparse hwhole
  | none =>
    rw [DiscoveredKeys.locate_of_unnamed hunknown hrefused hid] at hwhole
    cases hsought : d.sought w s with
    | error reason =>
      rw [hsought] at hwhole
      exact verify_of_locate_error hparse hwhole
    | ok keySet =>
      rw [hsought] at hwhole
      exact verify_of_locate_error hparse hwhole

/-- A token that names no key is refused for that reason, with nothing changed, only if it is known
where the keys are published. -/
theorem isSettled_of_verify (hparse : ParsedToken.parse v.allowPadding raw = .ok token)
    (hid : token.header.requireKeyId = .error .missingKeyId)
    (hrefused : v.verify raw w s = ((.error (.key .missingKeyId), v), s)) :
    v.locator.IsSettled := by
  rcases v.locator.isSettled_or with hsettled | ⟨d, hlocator, hunknown⟩
  · exact hsettled
  -- an attempt is refused, gives another error or leaves a key set behind
  rw [verify_of_unsettled hlocator hunknown hparse hid] at hrefused
  cases hrest : d.refusedFor? w.instant with
  | some rest =>
    rw [hrest] at hrefused
    exact nomatch hrefused
  | none =>
    rw [hrest] at hrefused
    cases hsought : d.sought w s with
    | error reason =>
      rw [hsought] at hrefused
      have hreason : reason = .missingKeyId := by
        have hanswer := congrArg (fun outcome => outcome.1.1) hrefused
        exact VerificationError.key.inj (Attempt.error.inj hanswer)
      rw [hreason] at hsought
      exact absurd hsought (d.sought_ne_missingKeyId w s)
    | ok keySet =>
      rw [hsought] at hrefused
      have hleft := congrArg (fun outcome => outcome.1.2.locator) hrefused
      dsimp only at hleft
      rw [hlocator] at hleft
      have hkeySet : some keySet = d.keySet :=
        congrArg DiscoveredKeys.keySet (KeyLocator.discovered.inj hleft)
      exact nomatch hkeySet.trans hunknown

/-- A token that does not name a key in the right form is never verified. If it cannot be taken
apart, it is refused at once, and nothing changes. If it lacks no more than the identifier of a key,
it is refused for that reason with nothing changed exactly if it is known where the keys are
published. If that is not known, an attempt to find it is made, unless it is refused. -/
theorem verify_of_unnamed (v : SignedVerifier) (raw : String) (w : Surroundings)
    (s : ProcessState) (hfetches : v.locator.Fetches) (hraw : ¬ ParsedToken.NamesKey raw) :
    (∀ e, ParsedToken.parse v.allowPadding raw = .error e →
      v.verify raw w s = ((.error e, v), s)) ∧
    ∀ token, ParsedToken.parse v.allowPadding raw = .ok token →
      (v.verify raw w s = ((.error (.key .missingKeyId), v), s) ↔ v.locator.IsSettled) ∧
      ∀ d, v.locator = .discovered d → d.keySet = none →
        (d.refusedFor? w.instant ≠ none →
          (v.verify raw w s).1.2 = v ∧ (v.verify raw w s).2 = s) ∧
        (d.refusedFor? w.instant = none →
          (v.verify raw w s).2.exchanges =
            s.exchanges ++ DiscoveredKeys.asked d.address w s) := by
  constructor
  · intro e hparse
    exact verify_of_parse_error w s hparse
  intro token hparse
  have hid : token.header.requireKeyId = .error .missingKeyId :=
    ParsedToken.requireKeyId_of_parse hraw hparse
  refine ⟨⟨isSettled_of_verify hparse hid, ?_⟩, ?_⟩
  · intro hsettled
    exact verify_of_settled hfetches hsettled hparse hid
  · intro d hlocator hunknown
    rw [verify_of_unsettled hlocator hunknown hparse hid]
    cases d.refusedFor? w.instant with
    | some rest => exact ⟨fun _ => ⟨rfl, rfl⟩, nofun⟩
    | none => exact ⟨fun h => absurd rfl h, fun _ => (d.discover_apply w s).2.1⟩

/-- A token with an algorithm and without the identifier of a key. -/
def keyless : String := "eyJhbGciOiJIUzI1NiJ9.e30.AAAA"

theorem split_keyless : Text.split '.' keyless = ["eyJhbGciOiJIUzI1NiJ9", "e30", "AAAA"] := by
  decide

def keylessToken : ParsedToken :=
  .ofSegments keyless "eyJhbGciOiJIUzI1NiJ9" "e30" "AAAA" (.object [("alg", .string "HS256")])
    .hs256

theorem parse_keyless : ParsedToken.parse false keyless = .ok keylessToken := by
  refine (ParsedToken.parse_eq_ok_iff false keyless keylessToken).mpr
    ⟨_, _, _, _, .hs256, split_keyless, ?_, ParsedToken.readDocument_hs256,
      ParsedToken.readAlgorithm_hs256, by decide, rfl⟩
  have hpad : '=' ∉ keyless.toList :=
    Text.not_mem_of_split_three split_keyless (by decide) (by simp) (by simp) (by simp)
  rw [ParsedToken.contains_padding_eq_false hpad]
  exact nofun

theorem not_namesKey_keyless : ¬ ParsedToken.NamesKey keyless := by
  rintro ⟨header, payload, signature, document, algorithm, id, hsplit, hdocument, -, -, hkid, -⟩
  have hheader : header = "eyJhbGciOiJIUzI1NiJ9" :=
    (List.cons.inj (hsplit.symm.trans split_keyless)).1
  have hnone : (Json.object [("alg", .string "HS256")]).canonical.member? "kid" = none := by
    decide
  rw [hheader, ParsedToken.readDocument_hs256] at hdocument
  rw [← Except.ok.inj hdocument, hnone] at hkid
  cases hkid

/-- A cache refuses the token at once, and is as empty afterwards as before. -/
theorem verify_of_unnamed_keyless :
    let v : SignedVerifier := { locator := .cached { location := .file "keys.json" } }
    v.locator.Fetches ∧ ¬ ParsedToken.NamesKey keyless ∧
      v.verify keyless CachedKeySet.doubled {} = ((.error (.key .missingKeyId), v), {}) := by
  intro v
  have hfetches : v.locator.Fetches := trivial
  have hsettled : v.locator.IsSettled := by
    intro d h
    cases h
  obtain ⟨-, hparsed⟩ :=
    verify_of_unnamed v keyless CachedKeySet.doubled {} hfetches not_namesKey_keyless
  exact ⟨hfetches, not_namesKey_keyless, (hparsed keylessToken parse_keyless).1.mpr hsettled⟩

/-- The token makes a provider that was not asked before be asked, and is not refused for what it
lacks. -/
theorem verify_keyless_asks :
    let d : DiscoveredKeys := { address := DiscoveredKeys.providerAddress }
    let v : SignedVerifier := { locator := .discovered d }
    let silent : Surroundings :=
      { DiscoveredKeys.announced 0 "" with network := fun _ => .unreachable }
    v.locator.Fetches ∧ ¬ ParsedToken.NamesKey keyless ∧
      (∃ reason, (v.verify keyless silent {}).1.1 = .error (.key (.discovery reason))) ∧
      (v.verify keyless silent {}).2.exchanges =
        [⟨DiscoveredKeys.providerAddress, .unreachable⟩] := by
  intro d v silent
  have hfetches : v.locator.Fetches := trivial
  have hid : keylessToken.header.requireKeyId = .error .missingKeyId :=
    ParsedToken.requireKeyId_of_parse not_namesKey_keyless parse_keyless
  let s : ProcessState := {}
  have hunknown : (s.providers.find silent.instant d.address).1 = none := rfl
  obtain ⟨hconsulted, hasked⟩ := DiscoveredKeys.consulted_of_unknown hunknown
  obtain ⟨e, he⟩ := DiscoveredKeys.described_of_unreachable (w := silent) rfl
  have hsought : d.sought silent {} = .error (.discovery e.message) := by
    unfold DiscoveredKeys.sought
    rw [hconsulted, he]
    rfl
  have hone : silent.exchangesFor d.address = [⟨DiscoveredKeys.providerAddress, .unreachable⟩] :=
    exchangesFor_of_final DiscoveredKeys.fetchAddress_providerAddress fun _ => nofun
  have hpermitted : d.refusedFor? silent.instant = none := rfl
  have hverify : v.verify keyless silent {} = _ :=
    verify_of_unsettled (d := d) rfl rfl parse_keyless hid
  rw [hpermitted, hsought] at hverify
  refine ⟨hfetches, not_namesKey_keyless, ⟨e.message, ?_⟩, ?_⟩
  · rw [hverify]
  · rw [hverify]
    dsimp only
    rw [(d.discover_apply silent {}).2.1, hasked, hone]
    rfl

end SignedVerifier

end BearerAuth

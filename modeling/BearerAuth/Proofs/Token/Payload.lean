import BearerAuth.Proofs.Base64.Unpadded
import BearerAuth.Proofs.Token.Judgement
import BearerAuth.Token.Verifier

namespace BearerAuth

open Outcome

/-- A payload encodes claims: its bytes are a JSON object with these members. -/
def ParsedToken.Encodes (payload : String) (claims : Claims) : Prop :=
  ∃ bytes, segmentBytes payload = .ok bytes ∧ Json.readBytes bytes = .ok claims.toJson

def ClaimedTime.ofClaim (claim : Option Json) : ClaimedTime := (claim.map ofJson).getD .absent

/-- The registered claims as they stand among claims. -/
def RegisteredClaims.ofClaims (c : Claims) : RegisteredClaims :=
  ⟨.ofClaim (c.get? "exp"), .ofClaim (c.get? "nbf"), c.get? "iss", c.get? "aud"⟩

/-- The claims that the members of an object stand for. -/
def Claims.ofMembers (members : Json.Members) : Claims :=
  ⟨Json.Members.sorted (Json.canonicalMembers members)⟩

theorem Claims.get?_ofMembers {members : Json.Members} {name : String}
    (h : (members.filter (·.1 == name)).length ≤ 1) :
    (ofMembers members).get? name = (members.lookup name).map Json.canonical :=
  Json.get?_canonical_of_once members name h

theorem ClaimedTime.ofJson_canonical (v : Json) : ofJson v.canonical = ofJson v := by
  cases v <;> simp only [Json.canonical, ofJson]

theorem ClaimedTime.ofClaim_canonical (claim : Option Json) :
    ofClaim (claim.map Json.canonical) = ofClaim claim := by
  cases claim with
  | none => rfl
  | some v =>
    change ofJson v.canonical = ofJson v
    exact ofJson_canonical v

theorem Expectation.texts?_canonical (v : Json) : texts? v.canonical = texts? v := by
  cases v <;> try simp only [Json.canonical, texts?]
  case array items =>
    rw [Json.canonicalItems_eq_map, List.mapM_map]
    congr 1
    funext v
    exact Json.string?_canonical v

theorem RegisteredClaims.passes_canonical (expected : Option String) (claim : Option Json) :
    passes expected (claim.map Json.canonical) = passes expected claim := by
  unfold passes
  cases claim with
  | none => rfl
  | some v => rw [Option.map_some, Option.bind_some, Option.bind_some, Expectation.texts?_canonical]

theorem Json.canonical_eq_object_iff (document : Json) (ms : Members) :
    document.canonical = .object ms ↔
      ∃ members, document = .object members ∧ ms = Members.sorted (canonicalMembers members) := by
  cases document <;> simp [canonical, eq_comm]

namespace SignedVerifier

theorem claimsOf_eq_ok_iff (document : Json) (claims : Claims) :
    claimsOf document = .ok claims ↔ document.canonical = claims.toJson := by
  obtain ⟨members⟩ := claims
  unfold claimsOf Claims.ofJson? Claims.toJson
  cases document.canonical <;> simp [Json.object?]

/-- The strict reading of a payload, and what it takes to pass. -/
theorem readPayload_eq_ok_iff (messages : Json.FormMessages) (e : Expectation) (payload : String)
    (claims : Claims) : readPayload messages e payload = .ok claims ↔
      ∃ bytes document registered,
        Base64.decode .urlSafe .absent (Text.Utf8.encode payload) = .ok bytes ∧
        Json.documentOfBytes bytes = .ok document ∧
        RegisteredClaims.ofPayload? document = some registered ∧
        registered.judge e = .ok () ∧ document.canonical = claims.toJson := by
  unfold readPayload
  simp only [bind_eq_ok_iff, mapError_eq_ok_iff]
  constructor
  · rintro ⟨bytes, hbytes, document, hdocument, h⟩
    cases hr : RegisteredClaims.ofPayload? document with
    | none =>
      rw [hr] at h
      exact nomatch h
    | some registered =>
      rw [hr, bind_eq_ok_iff] at h
      obtain ⟨_, hjudge, hclaims⟩ := h
      exact ⟨bytes, document, registered, hbytes, hdocument, hr, hjudge,
        (claimsOf_eq_ok_iff document claims).mp hclaims⟩
  · rintro ⟨bytes, document, registered, hbytes, hdocument, hr, hjudge, hclaims⟩
    refine ⟨bytes, hbytes, document, hdocument, ?_⟩
    rw [hr, bind_eq_ok_iff]
    exact ⟨(), hjudge, (claimsOf_eq_ok_iff document claims).mpr hclaims⟩

/-- The lenient reading of a payload gives the claims that it encodes if they pass. -/
theorem readPaddedPayload_eq_ok_iff (e : Expectation) (payload : String) (claims : Claims) :
    readPaddedPayload e payload = .ok claims ↔
      ParsedToken.Encodes payload claims ∧ e.judgeClaims claims = .ok () := by
  unfold readPaddedPayload ParsedToken.Encodes Json.readBytes
  simp only [bind_eq_ok_iff, mapError_eq_ok_iff]
  constructor
  · rintro ⟨bytes, hbytes, document, hdocument, c, hc, _, hjudge, hpure⟩
    cases hpure
    rw [claimsOf_eq_ok_iff] at hc
    exact ⟨⟨bytes, hbytes, by rw [hdocument, Except.map, hc]⟩, hjudge⟩
  · rintro ⟨⟨bytes, hbytes, hread⟩, hjudge⟩
    cases hdocument : Json.documentOfBytes bytes with
    | error => rw [hdocument] at hread; exact nomatch hread
    | ok document =>
      rw [hdocument] at hread
      exact ⟨bytes, hbytes, document, hdocument, claims,
        (claimsOf_eq_ok_iff document claims).mpr (Except.ok.inj hread), (), hjudge, rfl⟩

end SignedVerifier

/-- Registered claims that are read from an object are those that stand in its canonical form, up
to the order of members within them. -/
theorem RegisteredClaims.eq_of_ofPayload? {members : Json.Members} {registered : RegisteredClaims}
    (h : ofPayload? (.object members) = some registered) :
    (∀ name ∈ names, (members.filter (·.1 == name)).length ≤ 1) ∧
      registered = ⟨.ofClaim (members.lookup "exp"), .ofClaim (members.lookup "nbf"),
        members.lookup "iss", members.lookup "aud"⟩ := by
  simp only [ofPayload?, ofValues?] at h
  split at h
  · exact nomatch h
  · next hrepeat =>
    split at h
    · exact nomatch h
    · constructor
      · intro name hname
        by_contra hmany
        exact hrepeat (List.any_eq_true.mpr ⟨name, hname, decide_eq_true (Nat.not_le.mp hmany)⟩)
      · exact (Option.some.inj h).symm

/-- The registered claims of an object are judged as they stand among the claims. -/
theorem RegisteredClaims.judge_ofPayload? {members : Json.Members} {registered : RegisteredClaims}
    (h : ofPayload? (.object members) = some registered) (e : Expectation) :
    registered.judge e = (ofClaims (Claims.ofMembers members)).judge e := by
  obtain ⟨honce, rfl⟩ := eq_of_ofPayload? h
  -- none of the names is repeated, so it is no matter that the last of them stands
  have hget : ∀ name ∈ names,
      (Claims.ofMembers members).get? name = (members.lookup name).map Json.canonical :=
    fun name hname => Claims.get?_ofMembers (honce name hname)
  have hofClaims : ofClaims (Claims.ofMembers members) =
      ⟨.ofClaim (members.lookup "exp"), .ofClaim (members.lookup "nbf"),
        (members.lookup "iss").map Json.canonical, (members.lookup "aud").map Json.canonical⟩ := by
    rw [ofClaims, hget "exp" (by decide), hget "nbf" (by decide), hget "iss" (by decide),
      hget "aud" (by decide), ClaimedTime.ofClaim_canonical, ClaimedTime.ofClaim_canonical]
  rw [hofClaims, judge_eq_firstFault, judge_eq_firstFault, passes_canonical, passes_canonical]

/-- The claims of an accepted payload without padding: it encodes them, and their registered ones
pass the judgement of a payload as it was written. -/
theorem SignedVerifier.encodes_of_readPayload {messages : Json.FormMessages} {e : Expectation}
    {payload : String} {claims : Claims} (hpad : '=' ∉ payload.toList)
    (h : readPayload messages e payload = .ok claims) :
    ParsedToken.Encodes payload claims ∧ (RegisteredClaims.ofClaims claims).judge e = .ok () := by
  obtain ⟨bytes, document, registered, hbytes, hdocument, hr, hjudge, hclaims⟩ :=
    (readPayload_eq_ok_iff messages e payload claims).mp h
  obtain ⟨members, rfl, hmembers⟩ :=
    (Json.canonical_eq_object_iff document claims.members).mp hclaims
  constructor
  · refine ⟨bytes, ?_, ?_⟩
    · rw [ParsedToken.segmentBytes, ← Base64.decode_encode_absent_eq .urlSafe payload hpad]
      exact hbytes
    · rw [Json.readBytes, hdocument, Except.map, hclaims]
  · obtain ⟨ms⟩ := claims
    subst hmembers
    exact (RegisteredClaims.judge_ofPayload? hr e).symm.trans hjudge

end BearerAuth

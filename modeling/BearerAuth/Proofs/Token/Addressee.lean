import BearerAuth.Proofs.Token.Soundness

namespace BearerAuth

theorem Json.mapM_string?_eq_some_iff (items : List Json) (texts : List String) :
    items.mapM string? = some texts ↔ items = texts.map string := by
  induction items generalizing texts with
  | nil => cases texts <;> simp
  | cons v rest ih =>
    simp only [List.mapM_cons, Option.bind_eq_bind, Option.pure_def, Option.bind_eq_some_iff,
      Option.some.injEq, string?_eq_some_iff, ih]
    constructor
    · rintro ⟨s, rfl, others, rfl, rfl⟩
      rfl
    · intro h
      cases texts with
      | nil => exact nomatch h
      | cons s others =>
        obtain ⟨hv, hrest⟩ := List.cons_eq_cons.mp h
        exact ⟨s, hv, others, hrest, rfl⟩

namespace Expectation

/-- The values that mention a text: itself, and the lists that have it. -/
theorem mentions_eq_true_iff (text : String) (v : Json) :
    mentions text v = true ↔
      v = .string text ∨ ∃ items, v = .array items ∧ .string text ∈ items := by
  cases v <;> simp [mentions, Json.string?_eq_some_iff]

/-- The values that are read as texts: a text, and the lists of texts. -/
theorem texts?_eq_some_iff (v : Json) (texts : List String) :
    texts? v = some texts ↔
      (∃ text, v = .string text ∧ texts = [text]) ∨ v = .array (texts.map .string) := by
  cases v with
  | array items => simp [texts?, Json.mapM_string?_eq_some_iff]
  | string s => simp [texts?, eq_comm]
  | _ => simp [texts?]

/-- Among the values that are read as texts, those pass that mention the expected one. -/
theorem mentions_iff_mem_of_texts? {v : Json} {texts : List String} (h : texts? v = some texts)
    (text : String) : mentions text v = true ↔ text ∈ texts := by
  rw [mentions_eq_true_iff]
  rcases (texts?_eq_some_iff v texts).mp h with ⟨only, rfl, rfl⟩ | rfl
  · simp [eq_comm]
  · simp

end Expectation

/-- A claim passes unless it is read as texts without the expected one among them. -/
theorem RegisteredClaims.passes_eq_true_iff (text : String) (claim : Option Json) :
    passes (some text) claim = true ↔
      ∀ v texts, claim = some v → Expectation.texts? v = some texts → text ∈ texts := by
  unfold passes
  cases claim with
  | none => simp
  | some v =>
    rw [Option.bind_some]
    constructor
    · rintro h _ texts ⟨⟩ htexts
      rw [htexts] at h
      exact List.contains_iff_mem.mp h
    · intro h
      cases htexts : Expectation.texts? v with
      | none => rfl
      | some texts => exact List.contains_iff_mem.mpr (h v texts rfl htexts)

/-- Claims of an issuer: `iss` is its name. -/
def Claims.IsFrom (c : Claims) (issuer : String) : Prop := c.get? "iss" = some (.string issuer)

/-- Claims for an audience: `aud` is its name or a list with its name. -/
def Claims.IsFor (c : Claims) (audience : String) : Prop :=
  c.get? "aud" = some (.string audience) ∨
    ∃ items, c.get? "aud" = some (.array items) ∧ .string audience ∈ items

theorem Claims.isFor_iff (c : Claims) (audience : String) :
    c.IsFor audience ↔ ∃ v, c.get? "aud" = some v ∧ Expectation.mentions audience v = true := by
  unfold IsFor
  simp only [Expectation.mentions_eq_true_iff]
  constructor
  · rintro (h | ⟨items, h, hmem⟩)
    · exact ⟨_, h, Or.inl rfl⟩
    · exact ⟨_, h, Or.inr ⟨items, rfl, hmem⟩⟩
  · rintro ⟨v, h, rfl | ⟨items, rfl, hmem⟩⟩
    · exact Or.inl h
    · exact Or.inr ⟨items, h, hmem⟩

namespace SignedVerifier

/-- Claims that meet an expectation come from its issuer exactly when the token is padded or they
name an issuer by a text. -/
theorem isFrom_iff_of_meets {e : Expectation} {padded : Bool} {claims : Claims} {issuer : String}
    (h : Meets e padded claims) (he : e.issuer = some issuer) :
    claims.IsFrom issuer ↔ padded = true ∨ ∃ text, claims.get? "iss" = some (.string text) := by
  constructor
  · intro hfrom
    exact Or.inr ⟨issuer, hfrom⟩
  · cases padded with
    | true =>
      intro _
      obtain ⟨_, _, -, -, -, -, hissuer, -⟩ := (Expectation.judgeClaims_eq_ok_iff e claims ()).mp h
      exact hissuer issuer he
    | false =>
      rintro (hpadded | ⟨text, htext⟩)
      · exact nomatch hpadded
      · obtain ⟨-, -, -, -, hpasses, -⟩ := (RegisteredClaims.judge_eq_ok_iff _ e ()).mp h
        rw [he, RegisteredClaims.passes_eq_true_iff] at hpasses
        have hmem : issuer ∈ [text] := hpasses (.string text) [text] htext rfl
        rw [List.mem_singleton.mp hmem]
        exact htext

/-- Claims that meet an expectation are for its audience exactly when the token is padded or they
name an audience by a text, or by a list that has the expected one or nothing but texts. -/
theorem isFor_iff_of_meets {e : Expectation} {padded : Bool} {claims : Claims} {audience : String}
    (h : Meets e padded claims) (he : e.audience = some audience) :
    claims.IsFor audience ↔
      padded = true ∨ (∃ text, claims.get? "aud" = some (.string text)) ∨
        ∃ items, claims.get? "aud" = some (.array items) ∧
          (.string audience ∈ items ∨ ∃ texts : List String, items = texts.map .string) := by
  constructor
  · rintro (htext | ⟨items, hitems, hmem⟩)
    · exact Or.inr (Or.inl ⟨audience, htext⟩)
    · exact Or.inr (Or.inr ⟨items, hitems, Or.inl hmem⟩)
  · intro hnamed
    rw [Claims.isFor_iff]
    cases padded with
    | true =>
      obtain ⟨_, _, -, -, -, -, -, haudience⟩ :=
        (Expectation.judgeClaims_eq_ok_iff e claims ()).mp h
      exact haudience audience he
    | false =>
      obtain ⟨-, -, -, -, -, hpasses⟩ := (RegisteredClaims.judge_eq_ok_iff _ e ()).mp h
      rw [he, RegisteredClaims.passes_eq_true_iff] at hpasses
      -- whatever is read as texts mentions the audience, since it passes
      have hread : ∀ v texts, claims.get? "aud" = some v → Expectation.texts? v = some texts →
          ∃ v, claims.get? "aud" = some v ∧ Expectation.mentions audience v = true := by
        intro v texts hv htexts
        exact ⟨v, hv, (Expectation.mentions_iff_mem_of_texts? htexts audience).mpr
          (hpasses v texts hv htexts)⟩
      rcases hnamed with hpadded | ⟨text, htext⟩ | ⟨items, hitems, hmem | ⟨texts, rfl⟩⟩
      · exact nomatch hpadded
      · exact hread (.string text) [text] htext rfl
      · exact ⟨.array items, hitems,
          (Expectation.mentions_eq_true_iff audience _).mpr (Or.inr ⟨items, rfl, hmem⟩)⟩
      · exact hread _ texts hitems ((Expectation.texts?_eq_some_iff _ texts).mpr (Or.inr rfl))

/-- The claims of an accepted token come from the issuer that is expected exactly when the token is
padded or names an issuer by a text, and they are for the audience that is expected exactly when it
is padded or names an audience by a text, or by a list that has the expected one or nothing but
texts. -/
theorem addressee_iff_of_verify (v : SignedVerifier) (raw : String) (w : Surroundings)
    (s : ProcessState) (claims : Claims) (h : (v.verify raw w s).1.1 = .ok claims) :
    (∀ issuer, v.issuer = some issuer →
      (claims.IsFrom issuer ↔
        raw.contains '=' = true ∨ ∃ text, claims.get? "iss" = some (.string text))) ∧
    (∀ audience, v.audience = some audience →
      (claims.IsFor audience ↔
        raw.contains '=' = true ∨ (∃ text, claims.get? "aud" = some (.string text)) ∨
          ∃ items, claims.get? "aud" = some (.array items) ∧
            (.string audience ∈ items ∨ ∃ texts : List String, items = texts.map .string))) := by
  obtain ⟨_, _, _, -, -, hmeets⟩ := encodes_and_meets_of_verify h
  constructor
  · intro issuer hissuer
    exact isFrom_iff_of_meets hmeets hissuer
  · intro audience haudience
    exact isFor_iff_of_meets hmeets haudience

/-- The token for the application names both by texts. -/
theorem addressee_iff_of_verify_pass :
    (holder.verify pass quiet {}).1.1 = .ok passClaims ∧
      (passClaims.IsFrom "idp" ↔
        pass.contains '=' = true ∨ ∃ text, passClaims.get? "iss" = some (.string text)) ∧
      passClaims.IsFrom "idp" := by
  have h := verify_pass {}
  have hissuer := (addressee_iff_of_verify holder pass quiet {} passClaims h).1 "idp" rfl
  exact ⟨h, hissuer, hissuer.mpr (Or.inr ⟨"idp", rfl⟩)⟩

/-- A token without any claims that is signed with the secret of the holder. -/
def blank : String := "eyJhbGciOiJIUzI1NiJ9.e30.x68P15GCa1HmSDdw4rVLsw6ZdUMyLZHfITcI3kWE3Eg"

set_option maxRecDepth 100000 in
/-- A token without padding that names nobody is accepted where both are expected. -/
theorem verify_blank :
    holder.issuer = some "idp" ∧ holder.audience = some "app" ∧
      (holder.verify blank quiet {}).1.1 = .ok ⟨[]⟩ ∧
      ¬ Claims.IsFrom ⟨[]⟩ "idp" ∧ ¬ Claims.IsFor ⟨[]⟩ "app" := by
  have hverifies : KeyMaterial.verifies
      (.secret (Text.Utf8.encode "0123456789abcdef0123456789abcdef")) .hs256
      ("eyJhbGciOiJIUzI1NiJ9" ++ "." ++ "e30") "x68P15GCa1HmSDdw4rVLsw6ZdUMyLZHfITcI3kWE3Eg" =
        .ok true :=
    verifies_of_code (by decide +kernel)
  have hsplit : Text.split '.' blank = ["eyJhbGciOiJIUzI1NiJ9", "e30",
      "x68P15GCa1HmSDdw4rVLsw6ZdUMyLZHfITcI3kWE3Eg"] := by
    cbv
  have hpad : '=' ∉ blank.toList :=
    Text.not_mem_of_split_three hsplit (by decide) (by simp) (by simp) (by simp)
  have hread : readPayload {} (holder.expectation quiet.now) "e30" = .ok ⟨[]⟩ := by cbv
  have haccepted : (holder.verify blank quiet {}).1.1 = .ok ⟨[]⟩ :=
    verify_eq_ok_of_secret quiet {} rfl length_secret.ge hsplit hpad
      ParsedToken.readDocument_hs256 ParsedToken.readAlgorithm_hs256 (by decide) (by decide)
      hverifies hread
  have hnone : ∀ (name : String) (v : Json), Claims.get? ⟨[]⟩ name ≠ some v :=
    fun _ _ h => Option.some_ne_none _ h.symm
  refine ⟨rfl, rfl, haccepted, hnone "iss" _, ?_⟩
  rintro (h | ⟨items, h, -⟩)
  · exact hnone "aud" _ h
  · exact hnone "aud" _ h

end SignedVerifier

end BearerAuth

import BearerAuth.Proofs.Decimal.Nearest
import BearerAuth.Proofs.Token.Soundness

namespace BearerAuth

/-- The integer that a number is, if it has no fraction. -/
def Json.Number.toInt? : Number → Option Int
  | .int i => some i
  | .double x => x.toInt?

/-- The number nearest to an integer is on the side of every bound below the limit on which the
integer itself is. -/
theorem Json.Number.toInt64_compare {n : Number} {x : Binary64} {i : Int}
    (hx : n.toDouble? = some x) (hi : n.toInt? = some i) (bound : Int)
    (hbound : bound.natAbs < Binary64.exactLimit) :
    (x.toInt64 < bound ↔ i < bound) ∧ (bound < x.toInt64 ↔ bound < i) := by
  cases n with
  | int j =>
    cases hi
    exact Binary64.toInt64_compare_of_ofInt hx bound hbound
  | double y =>
    cases hx
    exact Binary64.toInt64_compare_of_toInt? hi bound hbound

/-- What is read as a time of a payload is a number, and if that is an integer it is the time. -/
theorem ClaimedTime.exists_of_readable {v : Json} (h : ofJson v ≠ .unreadable) :
    ∃ n k, v = .number n ∧ ofJson v = .seconds k ∧ ∀ i, n.toInt? = some i → i = k := by
  cases v with
  | number n =>
    cases n with
    | int j =>
      by_cases hj : (0 ≤ j && j < 0x10000000000000000) = true
      · have hread : ofJson (.number (.int j)) = .seconds j.toNat := by
          simp only [ofJson, hj, ↓reduceIte]
        refine ⟨.int j, j.toNat, rfl, hread, ?_⟩
        rintro i ⟨⟩
        rw [Bool.and_eq_true, decide_eq_true_eq] at hj
        exact (Int.toNat_of_nonneg hj.1).symm
      · exact absurd (by simp only [ofJson, hj, Bool.false_eq_true, ↓reduceIte]) h
    | double x =>
      by_cases hx : ((x.negative && x.mantissa != 0) || 0x10000000000000000 ≤ x.roundAbs) = true
      · exact absurd (by simp only [ofJson, hx, ↓reduceIte]) h
      · have hread : ofJson (.number (.double x)) = .seconds x.roundAbs := by
          simp only [ofJson, hx, Bool.false_eq_true, ↓reduceIte]
        refine ⟨.double x, x.roundAbs, rfl, hread, ?_⟩
        intro i hi
        simp only [Json.Number.toInt?, Binary64.toInt?, Option.ite_none_right_eq_some,
          Option.some.injEq] at hi
        obtain ⟨hintegral, rfl⟩ := hi
        rw [Binary64.roundAbs_eq_floorAbs hintegral]
        -- a negative number that can be read is zero
        cases hsign : x.negative with
        | false => rfl
        | true =>
          have hzero : x.mantissa = 0 := by
            by_contra hmantissa
            simp [hsign, hmantissa] at hx
          rw [Binary64.floorAbs_eq_zero_of_mantissa hzero]
          rfl
  | _ => exact absurd rfl h

/-- A time in claims: unless it is absent or null it is a number that meets a condition. -/
def Claims.HasTime (c : Claims) (name : String) (meets : Json.Number → Prop) : Prop :=
  ∀ v, c.get? name = some v → v ≠ .null → ∃ n, v = .number n ∧ meets n

theorem Claims.HasTime.imp {c : Claims} {name : String} {p q : Json.Number → Prop}
    (h : c.HasTime name p) (hpq : ∀ n, p n → q n) : c.HasTime name q := by
  intro v hv hnull
  obtain ⟨n, hn, hp⟩ := h v hv hnull
  exact ⟨n, hn, hpq n hp⟩

/-- A readable time of a payload, if it is an integer, is that integer. -/
theorem ClaimedTime.hasTime_of_ofClaim {claims : Claims} {name : String}
    (h : ofClaim (claims.get? name) ≠ .unreadable) :
    claims.HasTime name fun n =>
      ∃ k : Nat, ofClaim (claims.get? name) = .seconds k ∧ ∀ i, n.toInt? = some i → i = k := by
  intro v hv _
  rw [hv] at h ⊢
  obtain ⟨n, k, hn, hk, hvalue⟩ := exists_of_readable h
  exact ⟨n, hn, k, hk, hvalue⟩

/-- A time that is read as a whole number is a number, and what is read of it is the nearest number
of the format without its fraction. -/
theorem Expectation.hasTime_of_wholeNumber {claims : Claims} {name : String} {t : Option Int}
    (h : wholeNumber claims name = .ok t) :
    claims.HasTime name fun n => ∃ x, n.toDouble? = some x ∧ t = some x.toInt64 := by
  intro v hv hnull
  unfold wholeNumber at h
  rw [hv] at h
  cases v with
  | number n =>
    cases hx : n.toDouble? with
    | none =>
      simp only [hx] at h
      exact nomatch h
    | some x =>
      simp only [hx] at h
      exact ⟨n, rfl, x, hx, (Except.ok.inj h).symm⟩
  | null => exact absurd rfl hnull
  | _ => exact nomatch h

namespace Expectation

/-- A bound beyond the limit, for tokens whose times are judged by the binary numbers nearest to
them. A clock that shows such a bound is off by 285 million years. -/
def Remote (padded : Bool) (bound : Int) : Prop :=
  padded = true ∧ Binary64.exactLimit ≤ bound.natAbs

/-- A number that is no time before a bound. The time of a padded token is the nearest number of the
format without its fraction. -/
def NoEarlier (padded : Bool) (bound : Int) (n : Json.Number) : Prop :=
  (∀ i, n.toInt? = some i → bound ≤ i ∨ Remote padded bound) ∧
    (padded = true → ∃ x, n.toDouble? = some x ∧ bound ≤ x.toInt64)

/-- A number that is no time after a bound. -/
def NoLater (padded : Bool) (bound : Int) (n : Json.Number) : Prop :=
  (∀ i, n.toInt? = some i → i ≤ bound ∨ Remote padded bound) ∧
    (padded = true → ∃ x, n.toDouble? = some x ∧ x.toInt64 ≤ bound)

variable {n : Json.Number} {x : Binary64} {bound : Int}

theorem noEarlier_of_toInt64 (hx : n.toDouble? = some x) (h : bound ≤ x.toInt64) :
    NoEarlier true bound n := by
  refine ⟨?_, fun _ => ⟨x, hx, h⟩⟩
  intro i hi
  -- the number compared is not the integer, but it is on the same side of a bound in range
  by_cases hbound : bound.natAbs < Binary64.exactLimit
  · have hsame := (Json.Number.toInt64_compare hx hi bound hbound).1
    have hnot : ¬ i < bound := fun hlt => Int.not_lt.mpr h (hsame.mpr hlt)
    exact Or.inl (Int.not_lt.mp hnot)
  · exact Or.inr ⟨rfl, Nat.le_of_not_lt hbound⟩

theorem noLater_of_toInt64 (hx : n.toDouble? = some x) (h : x.toInt64 ≤ bound) :
    NoLater true bound n := by
  refine ⟨?_, fun _ => ⟨x, hx, h⟩⟩
  intro i hi
  by_cases hbound : bound.natAbs < Binary64.exactLimit
  · have hsame := (Json.Number.toInt64_compare hx hi bound hbound).2
    have hnot : ¬ bound < i := fun hlt => Int.not_lt.mpr h (hsame.mpr hlt)
    exact Or.inl (Int.not_lt.mp hnot)
  · exact Or.inr ⟨rfl, Nat.le_of_not_lt hbound⟩

end Expectation

namespace SignedVerifier

theorem exp_of_meets {e : Expectation} {padded : Bool} {claims : Claims}
    (h : Meets e padded claims) :
    claims.HasTime "exp" (Expectation.NoEarlier padded (e.now - e.leeway)) := by
  -- what is compared with the clock is the number read if there is padding, else the one written
  cases padded with
  | true =>
    obtain ⟨exp, _, hexp, -, hpast, -⟩ := (Expectation.judgeClaims_eq_ok_iff e claims ()).mp h
    apply (Expectation.hasTime_of_wholeNumber hexp).imp
    intro n hn
    obtain ⟨x, hx, hread⟩ := hn
    exact Expectation.noEarlier_of_toInt64 hx (hpast x.toInt64 hread)
  | false =>
    obtain ⟨hreadable, -, hpast, -⟩ := (RegisteredClaims.judge_eq_ok_iff _ e ()).mp h
    apply (ClaimedTime.hasTime_of_ofClaim hreadable).imp
    intro n hn
    obtain ⟨k, hk, hvalue⟩ := hn
    refine ⟨?_, nofun⟩
    intro i hi
    rw [hvalue i hi]
    exact Or.inl (hpast k hk)

theorem nbf_of_meets {e : Expectation} {padded : Bool} {claims : Claims}
    (h : Meets e padded claims) :
    claims.HasTime "nbf" (Expectation.NoLater padded (e.now + e.leeway)) := by
  cases padded with
  | true =>
    obtain ⟨_, nbf, -, hnbf, -, hahead, -⟩ := (Expectation.judgeClaims_eq_ok_iff e claims ()).mp h
    apply (Expectation.hasTime_of_wholeNumber hnbf).imp
    intro n hn
    obtain ⟨x, hx, hread⟩ := hn
    exact Expectation.noLater_of_toInt64 hx (hahead x.toInt64 hread)
  | false =>
    obtain ⟨-, hreadable, -, hahead, -⟩ := (RegisteredClaims.judge_eq_ok_iff _ e ()).mp h
    apply (ClaimedTime.hasTime_of_ofClaim hreadable).imp
    intro n hn
    obtain ⟨k, hk, hvalue⟩ := hn
    refine ⟨?_, nofun⟩
    intro i hi
    rw [hvalue i hi]
    exact Or.inl (hahead k hk)

/-- The claims of an accepted token are those that its payload encodes. Unless `exp` is absent or
null it is a number that is no time before now less the clock skew; unless `nbf` is absent or null
it is a number that is no time after now plus the clock skew. -/
theorem lifetime_of_verify (v : SignedVerifier) (raw : String) (w : Surroundings)
    (s : ProcessState) (claims : Claims) (h : (v.verify raw w s).1.1 = .ok claims) :
    ∃ header payload signature, Text.split '.' raw = [header, payload, signature] ∧
      ParsedToken.Encodes payload claims ∧
      claims.HasTime "exp" (Expectation.NoEarlier (raw.contains '=') (w.now - v.clockSkew)) ∧
      claims.HasTime "nbf" (Expectation.NoLater (raw.contains '=') (w.now + v.clockSkew)) := by
  obtain ⟨header, payload, signature, hsplit, hencodes, hmeets⟩ := encodes_and_meets_of_verify h
  exact ⟨header, payload, signature, hsplit, hencodes, exp_of_meets hmeets, nbf_of_meets hmeets⟩

/-- The token for the application may be padded. -/
theorem verify_pass_padded (s : ProcessState) :
    (lenientHolder.verify (pass ++ "=") quiet s).1.1 = .ok passClaims :=
  verify_padded_eq_ok_of_secret quiet s rfl rfl length_secret.ge split_pass (by simp)
    ParsedToken.readDocument_hs256 ParsedToken.readAlgorithm_hs256 verifies_pass encodes_pass
    (by decide)

/-- The padded token for the application ends in the year 2100, and so does what is read of it. -/
theorem lifetime_of_verify_pass :
    (lenientHolder.verify (pass ++ "=") quiet {}).1.1 = .ok passClaims ∧
      ∃ n x, passClaims.get? "exp" = some (.number n) ∧ n.toDouble? = some x ∧
        1790000000 ≤ x.toInt64 ∧ ∀ i, n.toInt? = some i → 1790000000 ≤ i := by
  have haccepted := verify_pass_padded {}
  obtain ⟨_, _, _, -, -, hexp, -⟩ :=
    lifetime_of_verify lenientHolder (pass ++ "=") quiet {} passClaims haccepted
  have hpadded := ParsedToken.contains_append_padding pass
  obtain ⟨n, hn, hinteger, hread⟩ := hexp (.number (.int 4102444800)) (by decide) (by decide)
  cases hn
  obtain ⟨x, hx, hlate⟩ := hread hpadded
  refine ⟨haccepted, .int 4102444800, x, by decide, hx, hlate, ?_⟩
  intro i hi
  rcases hinteger i hi with hlate | ⟨-, hlimit⟩
  · exact hlate
  · exact absurd hlimit (by decide)

/-- A verifier that holds the secret, expects nobody and allows padding. -/
def lenient : SignedVerifier where
  locator := holder.locator
  allowPadding := true

/-- A token that ends at a second which is no number of the format, signed with the secret. -/
def rounded : String :=
  "eyJhbGciOiJIUzI1NiJ9.eyJleHAiOjkwMDcxOTkyNTQ3NDA5OTV9." ++
    "-33zp0mpJNMk32l3Ybd2BEFnxJa_8W7cd419FFxyLTU"

/-- A token that names two times at which it ends, signed with the secret. -/
def twice : String :=
  "eyJhbGciOiJIUzI1NiJ9.eyJleHAiOjEsImV4cCI6NDEwMjQ0NDgwMH0." ++
    "zpnB1hONrEVd2hCjT96IzTT7_GNuAq_k-VWKM5CM9d4"

set_option maxRecDepth 100000 in
theorem verify_rounded :
    (lenient.verify (rounded ++ "=") { quiet with timeOfDay := 9007199254740996 } {}).1.1 =
      .ok ⟨[("exp", .number (.int 9007199254740995))]⟩ := by
  let payload := "eyJleHAiOjkwMDcxOTkyNTQ3NDA5OTV9"
  let signature := "-33zp0mpJNMk32l3Ybd2BEFnxJa_8W7cd419FFxyLTU"
  have hsplit : Text.split '.' rounded = ["eyJhbGciOiJIUzI1NiJ9", payload, signature] := by cbv
  have hpad : '=' ∉ signature.toList := by simp [signature]
  have hverifies : KeyMaterial.verifies
      (.secret (Text.Utf8.encode "0123456789abcdef0123456789abcdef")) .hs256
      ("eyJhbGciOiJIUzI1NiJ9" ++ "." ++ payload) signature = .ok true :=
    verifies_of_code (by decide +kernel)
  have hencodes : ParsedToken.Encodes payload ⟨[("exp", .number (.int 9007199254740995))]⟩ :=
    ⟨Text.Utf8.encode "\x7b\"exp\":9007199254740995\x7d", by cbv, by cbv⟩
  exact verify_padded_eq_ok_of_secret _ {} rfl rfl length_secret.ge hsplit hpad
    ParsedToken.readDocument_hs256 ParsedToken.readAlgorithm_hs256 hverifies hencodes (by decide)

set_option maxRecDepth 100000 in
theorem verify_twice :
    (lenient.verify (twice ++ "=") quiet {}).1.1 =
      .ok ⟨[("exp", .number (.int 4102444800))]⟩ := by
  let payload := "eyJleHAiOjEsImV4cCI6NDEwMjQ0NDgwMH0"
  let signature := "zpnB1hONrEVd2hCjT96IzTT7_GNuAq_k-VWKM5CM9d4"
  have hsplit : Text.split '.' twice = ["eyJhbGciOiJIUzI1NiJ9", payload, signature] := by cbv
  have hpad : '=' ∉ signature.toList := by simp [signature]
  have hverifies : KeyMaterial.verifies
      (.secret (Text.Utf8.encode "0123456789abcdef0123456789abcdef")) .hs256
      ("eyJhbGciOiJIUzI1NiJ9" ++ "." ++ payload) signature = .ok true :=
    verifies_of_code (by decide +kernel)
  have hencodes : ParsedToken.Encodes payload ⟨[("exp", .number (.int 4102444800))]⟩ :=
    ⟨Text.Utf8.encode "\x7b\"exp\":1,\"exp\":4102444800\x7d", by cbv, by cbv⟩
  exact verify_padded_eq_ok_of_secret quiet {} rfl rfl length_secret.ge hsplit hpad
    ParsedToken.readDocument_hs256 ParsedToken.readAlgorithm_hs256 hverifies hencodes (by decide)

/-- A padded token is accepted a second after its end if the second is beyond the integers of the
format, and long after its end if a later one is named after that. -/
theorem verify_ended :
    lenient.clockSkew = 0 ∧
      (let late : Surroundings := { quiet with timeOfDay := 9007199254740996 }
      late.now = 9007199254740996 ∧ (lenient.verify (rounded ++ "=") late {}).1.1 =
        .ok ⟨[("exp", .number (.int 9007199254740995))]⟩) ∧
      quiet.now = 1790000000 ∧
      Json.document "\x7b\"exp\":1,\"exp\":4102444800\x7d" =
        .ok (.object [("exp", .number (.int 1)), ("exp", .number (.int 4102444800))]) ∧
      ParsedToken.segmentBytes "eyJleHAiOjEsImV4cCI6NDEwMjQ0NDgwMH0" =
        .ok (Text.Utf8.encode "\x7b\"exp\":1,\"exp\":4102444800\x7d") ∧
      (lenient.verify (twice ++ "=") quiet {}).1.1 = .ok ⟨[("exp", .number (.int 4102444800))]⟩ :=
  ⟨rfl, ⟨rfl, verify_rounded⟩, rfl, by cbv, by cbv, verify_twice⟩

end SignedVerifier

end BearerAuth

import BearerAuth.Proofs.Json.Members
import BearerAuth.Proofs.Outcome
import BearerAuth.Token.RegisteredClaims

namespace BearerAuth

open Outcome

/-- A time before a bound. -/
def ClaimedTime.isBefore (t : ClaimedTime) (bound : Int) : Bool :=
  match t with
  | .seconds n => (n : Int) < bound
  | _ => false

/-- A time after a bound. -/
def ClaimedTime.isAfter (t : ClaimedTime) (bound : Int) : Bool :=
  match t with
  | .seconds n => bound < (n : Int)
  | _ => false

theorem ClaimedTime.isBefore_eq_false_iff (t : ClaimedTime) (bound : Int) :
    t.isBefore bound = false ↔ ∀ n : Nat, t = .seconds n → bound ≤ n := by
  cases t <;> simp [isBefore]

theorem ClaimedTime.isAfter_eq_false_iff (t : ClaimedTime) (bound : Int) :
    t.isAfter bound = false ↔ ∀ n : Nat, t = .seconds n → (n : Int) ≤ bound := by
  cases t <;> simp [isAfter]

/-- The judgement of a payload as it was written: both times are looked at before either is
compared with the clock. -/
theorem RegisteredClaims.judge_eq_firstFault (c : RegisteredClaims) (e : Expectation) :
    c.judge e = firstFault [
      (c.exp = .unreadable, .other "Invalid format for claim: exp"),
      (c.nbf = .unreadable, .other "Invalid format for claim: nbf"),
      (c.exp.isBefore (e.now - e.leeway), Expectation.expired),
      (c.nbf.isAfter (e.now + e.leeway), Expectation.premature),
      (!passes e.issuer c.iss, Expectation.wrongIssuer),
      (!passes e.audience c.aud, Expectation.wrongAudience)] := by
  obtain ⟨exp, nbf, iss, aud⟩ := c
  -- each kind of time leaves its own checks out
  cases exp <;> cases nbf <;>
    simp only [judge, firstFault, ClaimedTime.isBefore, ClaimedTime.isAfter] <;>
    simp [bind, Except.bind, throw, throwThe, MonadExceptOf.throw, pure, Except.pure]

/-- A time that cannot be read is a fault before any other. -/
theorem RegisteredClaims.judge_of_unreadable {c : RegisteredClaims} (e : Expectation)
    (h : c.exp = .unreadable ∨ c.nbf = .unreadable) :
    ∃ text, c.judge e = .error (.other text) := by
  rw [judge_eq_firstFault]
  by_cases hexp : c.exp = .unreadable
  · refine ⟨"Invalid format for claim: exp", ?_⟩
    simp only [firstFault, hexp, decide_true, ↓reduceIte]
  · have hnbf : c.nbf = .unreadable := h.resolve_left hexp
    refine ⟨"Invalid format for claim: nbf", ?_⟩
    simp only [firstFault, hexp, hnbf, decide_true, decide_false, Bool.false_eq_true, ↓reduceIte]

/-- Times that can be read leave four checks. -/
theorem RegisteredClaims.judge_of_readable {c : RegisteredClaims} (e : Expectation)
    (hexp : c.exp ≠ .unreadable) (hnbf : c.nbf ≠ .unreadable) :
    c.judge e = firstFault [
      (c.exp.isBefore (e.now - e.leeway), Expectation.expired),
      (c.nbf.isAfter (e.now + e.leeway), Expectation.premature),
      (!passes e.issuer c.iss, Expectation.wrongIssuer),
      (!passes e.audience c.aud, Expectation.wrongAudience)] := by
  rw [judge_eq_firstFault, firstFault_cons_of_false _ _ (decide_eq_false hexp),
    firstFault_cons_of_false _ _ (decide_eq_false hnbf)]

/-- The judgement of claims as numbers and texts: each time is compared with the clock as soon as
it is read. -/
theorem Expectation.judgeClaims_eq_checks (e : Expectation) (claims : Claims) :
    e.judgeClaims claims = (do
      let exp ← wholeNumber claims "exp"
      firstFault [(exp.any (· < e.now - e.leeway), expired)]
      let nbf ← wholeNumber claims "nbf"
      firstFault [
        (nbf.any (e.now + e.leeway < ·), premature),
        (e.issuer.any fun issuer => (claims.get? "iss").bind Json.string? != some issuer,
          wrongIssuer),
        (e.audience.any fun audience => !(claims.get? "aud").any (mentions audience),
          wrongAudience)]) := by
  unfold judgeClaims
  cases wholeNumber claims "exp" with
  | error => rfl
  | ok exp =>
    cases wholeNumber claims "nbf" with
    | error =>
      -- a token that has ended is refused before its beginning is read
      cases exp with
      | none => rfl
      | some exp =>
        by_cases hpast : exp < e.now - e.leeway <;>
          simp [bind, Except.bind, firstFault, throw, throwThe, MonadExceptOf.throw, hpast]
    | ok nbf =>
      cases exp <;> cases nbf <;> cases e.issuer <;> cases e.audience <;>
        simp [bind, Except.bind, firstFault, throw, throwThe, MonadExceptOf.throw, pure,
          Except.pure] <;> split <;> rfl

/-- Times that are whole numbers leave the same four checks. -/
theorem Expectation.judgeClaims_of_wholeNumber (e : Expectation) {claims : Claims}
    {exp nbf : Option Int} (hexp : wholeNumber claims "exp" = .ok exp)
    (hnbf : wholeNumber claims "nbf" = .ok nbf) :
    e.judgeClaims claims = firstFault [
      (exp.any (· < e.now - e.leeway), expired),
      (nbf.any (e.now + e.leeway < ·), premature),
      (e.issuer.any fun issuer => (claims.get? "iss").bind Json.string? != some issuer,
        wrongIssuer),
      (e.audience.any fun audience => !(claims.get? "aud").any (mentions audience),
        wrongAudience)] := by
  rw [judgeClaims_eq_checks, hexp, hnbf]
  exact (firstFault_append [_] _).symm

/-- What the judgement of a payload as it was written lets pass. -/
theorem RegisteredClaims.judge_eq_ok_iff (c : RegisteredClaims) (e : Expectation) (u : Unit) :
    c.judge e = .ok u ↔
      c.exp ≠ .unreadable ∧ c.nbf ≠ .unreadable ∧
      (∀ n : Nat, c.exp = .seconds n → e.now - e.leeway ≤ n) ∧
      (∀ n : Nat, c.nbf = .seconds n → (n : Int) ≤ e.now + e.leeway) ∧
      passes e.issuer c.iss = true ∧ passes e.audience c.aud = true := by
  rw [judge_eq_firstFault, firstFault_eq_ok_iff]
  simp only [List.forall_mem_cons, List.not_mem_nil, false_implies, implies_true, and_true,
    decide_eq_false_iff_not, Bool.not_eq_false', ClaimedTime.isBefore_eq_false_iff,
    ClaimedTime.isAfter_eq_false_iff, ne_eq]

/-- What the judgement of claims as numbers and texts lets pass. -/
theorem Expectation.judgeClaims_eq_ok_iff (e : Expectation) (claims : Claims) (u : Unit) :
    e.judgeClaims claims = .ok u ↔
      ∃ exp nbf, wholeNumber claims "exp" = .ok exp ∧ wholeNumber claims "nbf" = .ok nbf ∧
        (∀ t, exp = some t → e.now - e.leeway ≤ t) ∧
        (∀ t, nbf = some t → t ≤ e.now + e.leeway) ∧
        (∀ issuer, e.issuer = some issuer → claims.get? "iss" = some (.string issuer)) ∧
        (∀ audience, e.audience = some audience →
          ∃ v, claims.get? "aud" = some v ∧ mentions audience v = true) := by
  rw [judgeClaims_eq_checks]
  simp only [bind_eq_ok_iff, firstFault_eq_ok_iff, List.forall_mem_cons, List.not_mem_nil,
    false_implies, implies_true, and_true, Option.any_eq_false, decide_eq_false_iff_not,
    Int.not_lt, bne_eq_false_iff_eq, Option.bind_eq_some_iff, Json.string?_eq_some_iff,
    exists_eq_right, Bool.not_eq_false', Option.any_eq_true]
  constructor
  · rintro ⟨exp, hexp, _, hpast, nbf, hnbf, hrest⟩
    exact ⟨exp, nbf, hexp, hnbf, hpast, hrest⟩
  · rintro ⟨exp, nbf, hexp, hnbf, hpast, hrest⟩
    exact ⟨exp, hexp, (), hpast, nbf, hnbf, hrest⟩

end BearerAuth

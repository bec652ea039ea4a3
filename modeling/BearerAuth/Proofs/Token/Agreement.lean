import BearerAuth.Proofs.Token.Addressee
import BearerAuth.Proofs.Token.Lifetime

/-! When the two readings of a payload come to the same. Each makes its checks in order and ends at
the first that finds something, so they agree exactly if no check tells them apart before that. -/

namespace BearerAuth

open Outcome

/-- Errors of the same variant, whatever they say. -/
inductive VerificationError.SameVariant : VerificationError → VerificationError → Prop
  | key (a b : KeyError) : SameVariant (.key a) (.key b)
  | signature (a b : String) : SameVariant (.signature a) (.signature b)
  | malformed (a b : String) : SameVariant (.malformed a) (.malformed b)
  | unsupported (a b : String) : SameVariant (.unsupported a) (.unsupported b)
  | expired (a b : String) : SameVariant (.expired a) (.expired b)
  | premature (a b : String) : SameVariant (.premature a) (.premature b)
  | invalidClaim (a b : String) : SameVariant (.invalidClaim a) (.invalidClaim b)
  | other (a b : String) : SameVariant (.other a) (.other b)

theorem VerificationError.SameVariant.refl (e : VerificationError) : SameVariant e e := by
  cases e <;> constructor

theorem VerificationError.SameVariant.symm {a b : VerificationError} (h : SameVariant a b) :
    SameVariant b a := by
  cases h <;> constructor

/-- Answers with the same value, with errors of the same variant, or with the same panic. -/
inductive SameOutcome {α : Type} :
    Attempt VerificationError α → Attempt VerificationError α → Prop
  | ok (a : α) : SameOutcome (.ok a) (.ok a)
  | error {a b : VerificationError} (h : a.SameVariant b) : SameOutcome (.error a) (.error b)
  | panic (p : Panic) : SameOutcome (.panic p) (.panic p)

namespace SameOutcome

variable {α β : Type}

theorem refl (x : Attempt VerificationError α) : SameOutcome x x := by
  cases x with
  | ok a => exact .ok a
  | error e => exact .error (.refl e)
  | panic p => exact .panic p

theorem symm {x y : Attempt VerificationError α} (h : SameOutcome x y) : SameOutcome y x := by
  cases h with
  | ok a => exact .ok a
  | error hvariant => exact .error hvariant.symm
  | panic p => exact .panic p

/-- What follows the same step has the same outcome exactly if it has wherever the step succeeds. -/
theorem bind_iff (x : Attempt VerificationError α) {f g : α → Attempt VerificationError β} :
    SameOutcome (x >>= f) (x >>= g) ↔ ∀ a, x = .ok a → SameOutcome (f a) (g a) := by
  cases x with
  | ok a =>
    constructor
    · rintro h _ ⟨⟩
      exact h
    · intro h
      exact h a rfl
  | error e => exact iff_of_true (.error (.refl e)) nofun
  | panic p => exact iff_of_true (.panic p) nofun

theorem eq_of_ok {a : α} {x : Attempt VerificationError α} (h : SameOutcome (.ok a) x) :
    x = .ok a := by
  cases h
  rfl

theorem error_iff {a b : VerificationError} :
    SameOutcome (.error a : Attempt VerificationError α) (.error b) ↔ a.SameVariant b := by
  constructor
  · intro h
    cases h with
    | error hvariant => exact hvariant
  · exact .error

/-- No error is of the variant of a malformed token but that of another. -/
theorem malformed_iff (text : String) (x : Attempt VerificationError α) :
    SameOutcome (.error (.malformed text)) x ↔ ∃ message, x = .error (.malformed message) := by
  constructor
  · intro h
    cases h with
    | error hvariant =>
      cases hvariant with
      | malformed _ message => exact ⟨message, rfl⟩
  · intro h
    obtain ⟨message, rfl⟩ := h
    exact .error (.malformed text message)

/-- Judgements have the same outcome exactly if they have after something that is given when they
pass. -/
theorem ofExcept_then_iff (x y : Except VerificationError Unit) (a : α) :
    SameOutcome (Attempt.ofExcept (x >>= fun _ => .ok a))
        (Attempt.ofExcept (y >>= fun _ => .ok a)) ↔
      SameOutcome (Attempt.ofExcept x) (Attempt.ofExcept y) := by
  cases x with
  | ok u =>
    cases y with
    | ok u' => exact iff_of_true (.ok a) (.ok ())
    | error e => exact iff_of_false nofun nofun
  | error e =>
    cases y with
    | ok u' => exact iff_of_false nofun nofun
    | error e' =>
      change SameOutcome (.error e) (.error e') ↔ SameOutcome (.error e) (.error e')
      rw [error_iff, error_iff]

theorem not_error_firstFault {fault : VerificationError} {checks : List (Bool × VerificationError)}
    (h : ∀ check ∈ checks, ¬ fault.SameVariant check.2) :
    ¬ SameOutcome (.error fault) (Attempt.ofExcept (firstFault checks)) := by
  induction checks with
  | nil => exact nofun
  | cons check checks ih =>
    obtain ⟨wrong, e⟩ := check
    rw [List.forall_mem_cons] at h
    cases wrong with
    | true =>
      intro hsame
      exact h.1 (error_iff.mp hsame)
    | false => exact ih h.2

/-- Two lists of checks that begin with checks for a fault that no other finds end alike exactly if
the first checks agree and, unless they find the fault, the others end alike. -/
theorem firstFault_cons_iff {fault : VerificationError} {wrong wrong' : Bool}
    {rest rest' : List (Bool × VerificationError)}
    (hrest : ∀ check ∈ rest, ¬ fault.SameVariant check.2)
    (hrest' : ∀ check ∈ rest', ¬ fault.SameVariant check.2) :
    SameOutcome (Attempt.ofExcept (firstFault ((wrong, fault) :: rest)))
        (Attempt.ofExcept (firstFault ((wrong', fault) :: rest'))) ↔
      (wrong = true ↔ wrong' = true) ∧ (¬ wrong = true →
        SameOutcome (Attempt.ofExcept (firstFault rest))
          (Attempt.ofExcept (firstFault rest'))) := by
  cases wrong with
  | true =>
    cases wrong' with
    | true =>
      have hboth : SameOutcome (Attempt.ofExcept (firstFault ((true, fault) :: rest)))
          (Attempt.ofExcept (firstFault ((true, fault) :: rest'))) := .error (.refl fault)
      exact iff_of_true hboth ⟨Iff.rfl, fun h => absurd rfl h⟩
    | false =>
      exact iff_of_false (fun h => not_error_firstFault hrest' h) fun h => nomatch h.1.mp rfl
  | false =>
    cases wrong' with
    | true =>
      exact iff_of_false (fun h => not_error_firstFault hrest h.symm) fun h => nomatch h.1.mpr rfl
    | false => exact ⟨fun h => ⟨Iff.rfl, fun _ => h⟩, fun h => h.2 Bool.false_ne_true⟩

end SameOutcome

namespace Expectation

/-- A time of claims before a bound, as it was written. -/
def WrittenBefore (bound : Int) (name : String) (c : Claims) : Prop :=
  ∃ k : Nat, ClaimedTime.ofClaim (c.get? name) = .seconds k ∧ (k : Int) < bound

def WrittenAfter (bound : Int) (name : String) (c : Claims) : Prop :=
  ∃ k : Nat, ClaimedTime.ofClaim (c.get? name) = .seconds k ∧ bound < (k : Int)

/-- A time of claims before a bound, as it is read as a whole number. -/
def ReadBefore (bound : Int) (name : String) (c : Claims) : Prop :=
  ∃ t, wholeNumber c name = .ok (some t) ∧ t < bound

def ReadAfter (bound : Int) (name : String) (c : Claims) : Prop :=
  ∃ t, wholeNumber c name = .ok (some t) ∧ bound < t

/-- Claims that come from whom and are for whom they are expected to be. -/
def Addressed (e : Expectation) (c : Claims) : Prop :=
  (∀ issuer, e.issuer = some issuer → c.IsFrom issuer) ∧
    ∀ audience, e.audience = some audience → c.IsFor audience

/-- Claims of which both judgements find the same. Their times can be read as they were written,
the one is past in both readings or in neither, if not then the other is ahead in both or in
neither, and if not then they are addressed as expected if they pass for that. -/
structure JudgesAlike (e : Expectation) (c : Claims) : Prop where
  exp : ClaimedTime.ofClaim (c.get? "exp") ≠ .unreadable
  nbf : ClaimedTime.ofClaim (c.get? "nbf") ≠ .unreadable
  past : WrittenBefore (e.now - e.leeway) "exp" c ↔ ReadBefore (e.now - e.leeway) "exp" c
  ahead : ¬ WrittenBefore (e.now - e.leeway) "exp" c →
    (WrittenAfter (e.now + e.leeway) "nbf" c ↔ ReadAfter (e.now + e.leeway) "nbf" c)
  addressed : ¬ WrittenBefore (e.now - e.leeway) "exp" c →
    ¬ WrittenAfter (e.now + e.leeway) "nbf" c →
    RegisteredClaims.passes e.issuer (c.get? "iss") = true →
    RegisteredClaims.passes e.audience (c.get? "aud") = true → e.Addressed c

variable {e : Expectation} {c : Claims} {name : String}

/-- What is addressed as expected passes for that. -/
theorem Addressed.passes (h : e.Addressed c) :
    RegisteredClaims.passes e.issuer (c.get? "iss") = true ∧
      RegisteredClaims.passes e.audience (c.get? "aud") = true := by
  constructor
  · cases hissuer : e.issuer with
    | none => rfl
    | some issuer =>
      have hfrom : c.get? "iss" = some (.string issuer) := h.1 issuer hissuer
      rw [RegisteredClaims.passes_eq_true_iff]
      intro v texts hv htexts
      rw [hfrom] at hv
      cases hv
      cases htexts
      exact List.mem_singleton_self issuer
  · cases haudience : e.audience with
    | none => rfl
    | some audience =>
      obtain ⟨v, hv, hmentions⟩ := (Claims.isFor_iff c audience).mp (h.2 audience haudience)
      rw [RegisteredClaims.passes_eq_true_iff]
      intro v' texts hv' htexts
      cases hv.symm.trans hv'
      exact (mentions_iff_mem_of_texts? htexts audience).mp hmentions

/-- What is checked last of claims whose times are in order. -/
theorem addressed_iff_checks (e : Expectation) (c : Claims) :
    e.Addressed c ↔
      ((e.issuer.any fun issuer => (c.get? "iss").bind Json.string? != some issuer) ||
        e.audience.any fun audience => !(c.get? "aud").any (mentions audience)) = false := by
  simp only [Addressed, Claims.IsFrom, Claims.isFor_iff, Bool.or_eq_false_iff, Option.any_eq_false,
    bne_eq_false_iff_eq, Option.bind_eq_some_iff, Json.string?_eq_some_iff, exists_eq_right,
    Bool.not_eq_false', Option.any_eq_true]

/-- A time that can be read as it was written can be read as a whole number. -/
theorem wholeNumber_of_readable (h : ClaimedTime.ofClaim (c.get? name) ≠ .unreadable) :
    ∃ t, wholeNumber c name = .ok t := by
  unfold wholeNumber
  cases hv : c.get? name with
  | none => exact ⟨none, rfl⟩
  | some v =>
    rw [hv] at h
    obtain ⟨n, k, rfl, hk, -⟩ := ClaimedTime.exists_of_readable h
    have hdouble : ∃ x, n.toDouble? = some x := by
      cases n with
      | double x => exact ⟨x, rfl⟩
      | int i =>
        -- what is no time of 64 bits is not readable
        simp only [ClaimedTime.ofJson] at hk
        split at hk
        · next hrange =>
          rw [Bool.and_eq_true, decide_eq_true_eq, decide_eq_true_eq] at hrange
          exact Binary64.exists_ofInt (by omega)
        · cases hk
    obtain ⟨x, hx⟩ := hdouble
    exact ⟨some x.toInt64, by simp only [hx]⟩

/-- A time that is no whole number is an error of one kind. -/
theorem failsIn_wholeNumber (c : Claims) (name : String) :
    FailsIn (fun fault => ∃ text, fault = .malformed text) (wholeNumber c name) := by
  unfold wholeNumber
  split
  · exact .ok none
  · exact .ok none
  · split
    · exact .ok _
    · exact .error ⟨_, rfl⟩
  · exact .error ⟨_, rfl⟩

/-- The judgement of claims as numbers and texts has no fault that is not among its own. -/
theorem not_sameOutcome_other (e : Expectation) (c : Claims) (text : String) :
    ¬ SameOutcome (.error (.other text)) (Attempt.ofExcept (e.judgeClaims c)) := by
  have hnumber (name : String) : FailsIn (fun fault => ¬ (VerificationError.other text).SameVariant
      fault) (wholeNumber c name) := by
    intro fault hfault
    obtain ⟨reason, rfl⟩ := failsIn_wholeNumber c name fault hfault
    exact nofun
  have hfails : FailsIn (fun fault => ¬ (VerificationError.other text).SameVariant fault)
      (e.judgeClaims c) := by
    rw [judgeClaims_eq_checks]
    apply FailsIn.bind (hnumber "exp")
    intro exp
    apply FailsIn.bind
    · apply FailsIn.firstFault
      simp only [List.forall_mem_singleton]
      exact nofun
    · intro _
      apply FailsIn.bind (hnumber "nbf")
      intro nbf
      apply FailsIn.firstFault
      simp only [List.forall_mem_cons, List.not_mem_nil, false_implies, implies_true, and_true]
      exact ⟨nofun, nofun, nofun⟩
  intro hsame
  cases hjudge : e.judgeClaims c with
  | ok u =>
    rw [hjudge] at hsame
    exact nomatch hsame
  | error fault =>
    rw [hjudge] at hsame
    exact hfails fault hjudge (SameOutcome.error_iff.mp hsame)

/-- The last two checks of either judgement find faults of the same variant. -/
theorem sameOutcome_addressee_iff (iss iss' aud aud' : Bool) :
    SameOutcome (Attempt.ofExcept (firstFault [(iss, wrongIssuer), (aud, wrongAudience)]))
        (Attempt.ofExcept (firstFault [(iss', wrongIssuer), (aud', wrongAudience)])) ↔
      ((iss || aud) = false ↔ (iss' || aud') = false) := by
  have hchecks (iss aud : Bool) :
      ((iss || aud) = false ∧ firstFault [(iss, wrongIssuer), (aud, wrongAudience)] = .ok ()) ∨
        ((iss || aud) = true ∧ ∃ text,
          firstFault [(iss, wrongIssuer), (aud, wrongAudience)] = .error (.invalidClaim text)) := by
    cases iss with
    | true => exact Or.inr ⟨rfl, _, rfl⟩
    | false =>
      cases aud with
      | true => exact Or.inr ⟨rfl, _, rfl⟩
      | false => exact Or.inl ⟨rfl, rfl⟩
  rcases hchecks iss aud with ⟨hpass, h⟩ | ⟨hfault, text, h⟩
  · rcases hchecks iss' aud' with ⟨hpass', h'⟩ | ⟨hfault', text', h'⟩
    · rw [h, h', hpass, hpass']
      exact iff_of_true (.ok ()) Iff.rfl
    · rw [h, h', hpass, hfault']
      exact iff_of_false nofun (by decide)
  · rcases hchecks iss' aud' with ⟨hpass', h'⟩ | ⟨hfault', text', h'⟩
    · rw [h, h', hfault, hpass']
      exact iff_of_false nofun (by decide)
    · rw [h, h', hfault, hfault']
      exact iff_of_true (.error (.invalidClaim text text')) Iff.rfl

/-- The four checks that either judgement makes once the times can be read. -/
theorem sameOutcome_checks_iff (past past' ahead ahead' iss iss' aud aud' : Bool) :
    SameOutcome
        (Attempt.ofExcept (firstFault [(past, expired), (ahead, premature), (iss, wrongIssuer),
          (aud, wrongAudience)]))
        (Attempt.ofExcept (firstFault [(past', expired), (ahead', premature), (iss', wrongIssuer),
          (aud', wrongAudience)])) ↔
      (past = true ↔ past' = true) ∧ (¬ past = true →
        (ahead = true ↔ ahead' = true) ∧ (¬ ahead = true →
          ((iss || aud) = false ↔ (iss' || aud') = false))) := by
  have hpast : ∀ ahead iss aud : Bool, ∀ check ∈ [(ahead, premature), (iss, wrongIssuer),
      (aud, wrongAudience)], ¬ expired.SameVariant check.2 := by
    intro ahead iss aud
    simp only [List.forall_mem_cons, List.not_mem_nil, false_implies, implies_true, and_true]
    exact ⟨nofun, nofun, nofun⟩
  have hahead : ∀ iss aud : Bool, ∀ check ∈ [(iss, wrongIssuer), (aud, wrongAudience)],
      ¬ premature.SameVariant check.2 := by
    intro iss aud
    simp only [List.forall_mem_cons, List.not_mem_nil, false_implies, implies_true, and_true]
    exact ⟨nofun, nofun⟩
  rw [SameOutcome.firstFault_cons_iff (hpast _ _ _) (hpast _ _ _),
    SameOutcome.firstFault_cons_iff (hahead _ _) (hahead _ _), sameOutcome_addressee_iff]

theorem isBefore_eq_true_iff (bound : Int) (name : String) (c : Claims) :
    (ClaimedTime.ofClaim (c.get? name)).isBefore bound = true ↔ WrittenBefore bound name c := by
  unfold WrittenBefore
  cases ClaimedTime.ofClaim (c.get? name) <;> simp [ClaimedTime.isBefore]

theorem isAfter_eq_true_iff (bound : Int) (name : String) (c : Claims) :
    (ClaimedTime.ofClaim (c.get? name)).isAfter bound = true ↔ WrittenAfter bound name c := by
  unfold WrittenAfter
  cases ClaimedTime.ofClaim (c.get? name) <;> simp [ClaimedTime.isAfter]

theorem any_lt_eq_true_iff {bound : Int} {t : Option Int} (h : wholeNumber c name = .ok t) :
    t.any (· < bound) = true ↔ ReadBefore bound name c := by
  unfold ReadBefore
  rw [h]
  cases t <;> simp

theorem any_gt_eq_true_iff {bound : Int} {t : Option Int} (h : wholeNumber c name = .ok t) :
    t.any (bound < ·) = true ↔ ReadAfter bound name c := by
  unfold ReadAfter
  rw [h]
  cases t <;> simp

/-- What is checked last of a payload whose times are in order. -/
theorem passes_iff_checks (e : Expectation) (c : Claims) :
    (RegisteredClaims.passes e.issuer (c.get? "iss") = true ∧
        RegisteredClaims.passes e.audience (c.get? "aud") = true) ↔
      ((!RegisteredClaims.passes e.issuer (c.get? "iss")) ||
        !RegisteredClaims.passes e.audience (c.get? "aud")) = false := by
  rw [Bool.or_eq_false_iff, Bool.not_eq_false', Bool.not_eq_false']

/-- Both judgements of claims end alike exactly if they find the same. -/
theorem sameOutcome_judge_iff (e : Expectation) (c : Claims) :
    SameOutcome (Attempt.ofExcept ((RegisteredClaims.ofClaims c).judge e))
      (Attempt.ofExcept (e.judgeClaims c)) ↔ e.JudgesAlike c := by
  by_cases hreadable : ClaimedTime.ofClaim (c.get? "exp") = .unreadable ∨
      ClaimedTime.ofClaim (c.get? "nbf") = .unreadable
  · obtain ⟨text, hjudge⟩ := RegisteredClaims.judge_of_unreadable
      (c := RegisteredClaims.ofClaims c) e hreadable
    rw [hjudge]
    refine iff_of_false (not_sameOutcome_other e c text) ?_
    intro h
    exact hreadable.elim h.exp h.nbf
  · obtain ⟨hexpread, hnbfread⟩ := not_or.mp hreadable
    -- readable times leave four checks to the one judgement, the same four as to the other
    obtain ⟨exp, hexp⟩ := wholeNumber_of_readable hexpread
    obtain ⟨nbf, hnbf⟩ := wholeNumber_of_readable hnbfread
    have hwritten : (RegisteredClaims.ofClaims c).judge e = _ :=
      RegisteredClaims.judge_of_readable e hexpread hnbfread
    have hpast : (RegisteredClaims.ofClaims c).exp.isBefore (e.now - e.leeway) = true ↔ _ :=
      isBefore_eq_true_iff (e.now - e.leeway) "exp" c
    have hahead : (RegisteredClaims.ofClaims c).nbf.isAfter (e.now + e.leeway) = true ↔ _ :=
      isAfter_eq_true_iff (e.now + e.leeway) "nbf" c
    rw [hwritten, judgeClaims_of_wholeNumber e hexp hnbf, sameOutcome_checks_iff,
      ← addressed_iff_checks, any_lt_eq_true_iff hexp, any_gt_eq_true_iff hnbf, hpast, hahead]
    have hpasses := passes_iff_checks e c
    constructor
    · intro h
      obtain ⟨hended, hrest⟩ := h
      refine ⟨hexpread, hnbfread, hended, fun hpast => (hrest hpast).1, ?_⟩
      intro hpast hahead hissuer haudience
      exact ((hrest hpast).2 hahead).mp (hpasses.mp ⟨hissuer, haudience⟩)
    · intro h
      refine ⟨h.past, fun hpast => ⟨h.ahead hpast, fun hahead => ?_⟩⟩
      constructor
      · intro hpass
        obtain ⟨hissuer, haudience⟩ := hpasses.mpr hpass
        exact h.addressed hpast hahead hissuer haudience
      · intro haddressed
        exact hpasses.mp haddressed.passes

/-- Claims of which the judgement as numbers and texts finds first that a time is no number. -/
def FindsNoNumber (e : Expectation) (c : Claims) : Prop :=
  (∀ t, wholeNumber c "exp" ≠ .ok t) ∨
    (¬ ReadBefore (e.now - e.leeway) "exp" c ∧ ∀ t, wholeNumber c "nbf" ≠ .ok t)

theorem sameOutcome_malformed_iff (e : Expectation) (c : Claims) (text : String) :
    SameOutcome (.error (.malformed text)) (Attempt.ofExcept (e.judgeClaims c)) ↔
      e.FindsNoNumber c := by
  unfold FindsNoNumber
  rw [judgeClaims_eq_checks]
  cases hexp : wholeNumber c "exp" with
  | error fault =>
    obtain ⟨reason, rfl⟩ := failsIn_wholeNumber c "exp" fault hexp
    exact iff_of_true (.error (.malformed text reason)) (Or.inl nofun)
  | ok exp =>
    rw [← any_lt_eq_true_iff hexp]
    change SameOutcome _ (Attempt.ofExcept (firstFault [(exp.any (· < e.now - e.leeway), expired)]
      >>= fun _ => wholeNumber c "nbf" >>= fun _ => firstFault _)) ↔ _
    cases exp.any (· < e.now - e.leeway) with
    | true =>
      have hdiffer : ¬ SameOutcome (.error (.malformed text) : Attempt VerificationError Unit)
          (.error expired) := fun h => nomatch SameOutcome.error_iff.mp h
      refine iff_of_false hdiffer ?_
      rintro (h | h)
      · exact h exp rfl
      · exact h.1 rfl
    | false =>
      -- the end of the token is not past, so its beginning is read
      cases hnbf : wholeNumber c "nbf" with
      | error fault =>
        obtain ⟨reason, rfl⟩ := failsIn_wholeNumber c "nbf" fault hnbf
        exact iff_of_true (.error (.malformed text reason)) (Or.inr ⟨Bool.false_ne_true, nofun⟩)
      | ok nbf =>
        refine iff_of_false ?_ ?_
        · apply SameOutcome.not_error_firstFault
          simp only [List.forall_mem_cons, List.not_mem_nil, false_implies, implies_true, and_true]
          exact ⟨nofun, nofun, nofun⟩
        · rintro (h | h)
          · exact h exp rfl
          · exact h.2 nbf rfl

/-- A time that is absent or a second after the epoch that the format holds. -/
def IsSecond (c : Claims) (name : String) : Prop :=
  ∀ v, c.get? name = some v → ∃ k : Nat, v = .number (.int k) ∧ k < Binary64.exactLimit

/-- Such a time is the same as it was written and as it is read. -/
theorem IsSecond.readings (h : IsSecond c name) :
    (ClaimedTime.ofClaim (c.get? name) = .absent ∧ wholeNumber c name = .ok none) ∨
      ∃ k : Nat, ClaimedTime.ofClaim (c.get? name) = .seconds k ∧
        wholeNumber c name = .ok (some (k : Int)) := by
  cases hv : c.get? name with
  | none => exact Or.inl ⟨rfl, by rw [wholeNumber, hv]⟩
  | some v =>
    obtain ⟨k, rfl, hk⟩ := h v hv
    have hlimit : Binary64.exactLimit = 0x20000000000000 := rfl
    have hrange : (0 ≤ (k : Int) && (k : Int) < 0x10000000000000000) = true := by
      rw [Bool.and_eq_true, decide_eq_true_eq, decide_eq_true_eq]
      omega
    obtain ⟨x, hx, hvalue⟩ := Binary64.toInt64_ofInt_of_lt (i := (k : Int)) hk
    refine Or.inr ⟨k, ?_, ?_⟩
    · simp only [ClaimedTime.ofClaim, Option.map_some, Option.getD_some, ClaimedTime.ofJson, hrange,
        ↓reduceIte, Int.toNat_natCast]
    · simp only [wholeNumber, hv, Json.Number.toDouble?, hx, hvalue]

theorem IsSecond.readable (h : IsSecond c name) :
    ClaimedTime.ofClaim (c.get? name) ≠ .unreadable := by
  rcases h.readings with ⟨hwritten, -⟩ | ⟨k, hwritten, -⟩
  · rw [hwritten]
    exact nofun
  · rw [hwritten]
    exact nofun

theorem IsSecond.before_iff (h : IsSecond c name) (bound : Int) :
    WrittenBefore bound name c ↔ ReadBefore bound name c := by
  unfold WrittenBefore ReadBefore
  rcases h.readings with ⟨hwritten, hread⟩ | ⟨k, hwritten, hread⟩ <;> rw [hwritten, hread] <;> simp

theorem IsSecond.after_iff (h : IsSecond c name) (bound : Int) :
    WrittenAfter bound name c ↔ ReadAfter bound name c := by
  unfold WrittenAfter ReadAfter
  rcases h.readings with ⟨hwritten, hread⟩ | ⟨k, hwritten, hread⟩ <;> rw [hwritten, hread] <;> simp

/-- Claims with such times are judged alike if they are addressed as expected. -/
theorem Addressed.judgesAlike (h : e.Addressed c) (hexp : IsSecond c "exp")
    (hnbf : IsSecond c "nbf") : e.JudgesAlike c where
  exp := hexp.readable
  nbf := hnbf.readable
  past := hexp.before_iff (e.now - e.leeway)
  ahead := fun _ => hnbf.after_iff (e.now + e.leeway)
  addressed := fun _ _ _ _ => h

end Expectation

/-- Documents of which both readings come to the same. An object whose registered claims have their
form is judged alike, and one in which they have not is malformed to both. Whatever else passes for
claims to the one reading, as an array of five items may, passes its judgement, and then is no
object to it either. -/
def Json.ReadAlike (e : Expectation) (document : Json) : Prop :=
  match document with
  | .object members =>
    (RegisteredClaims.ofPayload? (.object members) = none →
        e.FindsNoNumber (Claims.ofMembers members)) ∧
      ∀ registered, RegisteredClaims.ofPayload? (.object members) = some registered →
        e.JudgesAlike (Claims.ofMembers members)
  | document => ∀ registered, RegisteredClaims.ofPayload? document = some registered →
      registered.judge e = .ok ()

/-- Payloads of which both readings come to the same, as they do if it cannot be read. -/
def ParsedToken.PayloadReadAlike (e : Expectation) (payload : String) : Prop :=
  ∀ bytes document, segmentBytes payload = .ok bytes → Json.documentOfBytes bytes = .ok document →
    document.ReadAlike e

namespace SignedVerifier

theorem claimsOf_object (members : Json.Members) :
    claimsOf (.object members) = .ok (Claims.ofMembers members) :=
  (claimsOf_eq_ok_iff _ _).mpr rfl

/-- What is no object has no claims. -/
theorem claimsOf_of_ne_object {document : Json} (h : ∀ members, document ≠ .object members) :
    claimsOf document = .error (.malformed "payload is not a JSON object") := by
  cases document with
  | object members => exact absurd rfl (h members)
  | _ => rfl

/-- The claims of a document that is judged as it was written. -/
def readAsWritten (messages : Json.FormMessages) (e : Expectation) (bytes : List UInt8)
    (document : Json) : Except VerificationError Claims :=
  match RegisteredClaims.ofPayload? document with
  | none => throw (formError (messages.payload bytes))
  | some registered => do
    registered.judge e
    claimsOf document

/-- The claims of a document that are judged as numbers and texts. -/
def readAsClaims (e : Expectation) (document : Json) : Except VerificationError Claims := do
  let claims ← claimsOf document
  e.judgeClaims claims
  return claims

theorem sameOutcome_object_iff (messages : Json.FormMessages) (e : Expectation)
    (bytes : List UInt8) (members : Json.Members) :
    SameOutcome (Attempt.ofExcept (readAsWritten messages e bytes (.object members)))
        (Attempt.ofExcept (readAsClaims e (.object members))) ↔
      (Json.object members).ReadAlike e := by
  let claims := Claims.ofMembers members
  have hclaims : readAsClaims e (.object members) = e.judgeClaims claims >>= fun _ => .ok claims := by
    unfold readAsClaims
    rw [claimsOf_object]
    rfl
  have hwritten : readAsWritten messages e bytes (.object members) =
      (match RegisteredClaims.ofPayload? (.object members) with
        | none => .error (formError (messages.payload bytes))
        | some registered => registered.judge e) >>= fun _ => .ok claims := by
    unfold readAsWritten
    rw [claimsOf_object]
    cases RegisteredClaims.ofPayload? (.object members) <;> rfl
  -- both end with the same claims unless a judgement ends them before
  rw [hclaims, hwritten, SameOutcome.ofExcept_then_iff]
  simp only [Json.ReadAlike]
  cases hform : RegisteredClaims.ofPayload? (.object members) with
  | none =>
    have hmalformed := Expectation.sameOutcome_malformed_iff e claims
      s!"JSON error: {messages.payload bytes}"
    exact hmalformed.trans ⟨fun h => ⟨fun _ => h, nofun⟩, fun h => h.1 rfl⟩
  | some registered =>
    have hjudge := Expectation.sameOutcome_judge_iff e claims
    rw [← RegisteredClaims.judge_ofPayload? hform e] at hjudge
    exact hjudge.trans ⟨fun h => ⟨nofun, fun _ _ => h⟩, fun h => h.2 registered rfl⟩

/-- What is no object is malformed to the one reading, and to the other once it has passed all its
checks, if it has the form that they take. -/
theorem sameOutcome_iff_of_ne_object (messages : Json.FormMessages) (e : Expectation)
    (bytes : List UInt8) {document : Json} (h : ∀ members, document ≠ .object members) :
    SameOutcome (Attempt.ofExcept (readAsWritten messages e bytes document))
        (Attempt.ofExcept (readAsClaims e document)) ↔
      ∀ registered, RegisteredClaims.ofPayload? document = some registered →
        registered.judge e = .ok () := by
  have hnone := claimsOf_of_ne_object h
  unfold readAsWritten readAsClaims
  rw [hnone]
  cases RegisteredClaims.ofPayload? document with
  | none => exact iff_of_true (.error (.malformed _ _)) nofun
  | some registered =>
    have hdiffer : ¬ SameOutcome (.error (.malformed "payload is not a JSON object"))
        (Attempt.ofExcept (registered.judge e)) := by
      rw [RegisteredClaims.judge_eq_firstFault]
      apply SameOutcome.not_error_firstFault
      simp only [List.forall_mem_cons, List.not_mem_nil, false_implies, implies_true, and_true]
      exact ⟨nofun, nofun, nofun, nofun, nofun, nofun⟩
    change SameOutcome (Attempt.ofExcept (registered.judge e >>= fun _ => _)) _ ↔ _
    cases hjudge : registered.judge e with
    | ok u =>
      refine iff_of_true (.error (.malformed _ _)) ?_
      rintro _ ⟨⟩
      exact hjudge
    | error fault =>
      refine iff_of_false ?_ fun hall => nomatch hjudge.symm.trans (hall registered rfl)
      intro hsame
      apply hdiffer
      rw [hjudge]
      exact .error (SameOutcome.error_iff.mp hsame).symm

/-- The two readings of a document. -/
theorem sameOutcome_document_iff (messages : Json.FormMessages) (e : Expectation)
    (bytes : List UInt8) (document : Json) :
    SameOutcome (Attempt.ofExcept (readAsWritten messages e bytes document))
        (Attempt.ofExcept (readAsClaims e document)) ↔ document.ReadAlike e := by
  cases document with
  | object members => exact sameOutcome_object_iff messages e bytes members
  | _ => exact sameOutcome_iff_of_ne_object messages e bytes fun _ => nofun

/-- Both readings of a payload without padding have the same outcome exactly if they come to the
same. -/
theorem sameOutcome_readPayload_iff (messages : Json.FormMessages) (e : Expectation)
    {payload : String} (hpad : '=' ∉ payload.toList) :
    SameOutcome (Attempt.ofExcept (readPayload messages e payload))
        (Attempt.ofExcept (readPaddedPayload e payload)) ↔
      ParsedToken.PayloadReadAlike e payload := by
  have hdecode : Base64.decode .urlSafe .absent (Text.Utf8.encode payload) =
      ParsedToken.segmentBytes payload := Base64.decode_encode_absent_eq .urlSafe payload hpad
  unfold readPayload readPaddedPayload ParsedToken.PayloadReadAlike
  rw [hdecode]
  cases hbytes : ParsedToken.segmentBytes payload with
  | error fault => exact iff_of_true (.error (.malformed _ _)) nofun
  | ok bytes =>
    change SameOutcome (Attempt.ofExcept ((Json.documentOfBytes bytes).mapError _ >>= _))
      (Attempt.ofExcept ((Json.documentOfBytes bytes).mapError _ >>= _)) ↔ _
    cases hdocument : Json.documentOfBytes bytes with
    | error fault =>
      refine iff_of_true (.error (.malformed _ _)) ?_
      rintro bytes' document ⟨⟩ hread
      exact nomatch hdocument.symm.trans hread
    | ok document =>
      refine (sameOutcome_document_iff messages e bytes document).trans ?_
      constructor
      · rintro halike bytes' document' ⟨⟩ hread
        cases hdocument.symm.trans hread
        exact halike
      · intro h
        exact h bytes document rfl hdocument

end SignedVerifier

-- a null time is no number to the one reading and absent to the other
example : SignedVerifier.readPayload {} ⟨0, 0, none, none⟩ "eyJleHAiOm51bGx9" =
      .error (.other "Invalid format for claim: exp") ∧
    SignedVerifier.readPaddedPayload ⟨0, 0, none, none⟩ "eyJleHAiOm51bGx9" =
      .ok ⟨[("exp", .null)]⟩ := by
  constructor
  · cbv
  · cbv

end BearerAuth

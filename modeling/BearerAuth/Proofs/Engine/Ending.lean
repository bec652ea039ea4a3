import BearerAuth.Proofs.Engine.Reply

namespace BearerAuth

/-- A request that does not panic, whatever is asked of it. -/
structure Request.NeverPanics (r : Request) : Prop where
  headerValues : ∀ looks name p, r.headerValues looks name ≠ .panic p
  address : ∀ p, r.address ≠ .panic p
  attach : ∀ user p, r.attach user ≠ .panic p

/-- The ways in which the authentication of a request can end. -/
inductive Ending where
  /-- The request has a user, and nothing was done to the response. -/
  | admitted
  /-- A challenge was sent: one status and one header, and no error. -/
  | challenged
  /-- The answer of a broken server was sent, and no challenge. -/
  | broken
  /-- The caller has an error, and nothing was done to the response. -/
  | failed

def Ending.Describes (r : Request) (answer : Answer (Attempt String (Option User))) :
    Ending → Prop
  | admitted =>
    ∃ user, r.attach user = .ok () ∧ answer.outcome = .ok (some user) ∧ answer.actions = []
  | challenged =>
    answer.outcome = .ok none ∧ ∃ status value, (status = 400 ∨ status = 401) ∧
      answer.actions = [.setStatus status, .addHeader "WWW-Authenticate" value]
  | broken =>
    answer.outcome = .ok none ∧
      answer.actions = [.sendError 500 "Unexpected error during JWT authentication"]
  | failed => (∃ reason, answer.outcome = .error reason) ∧ answer.actions = []

/-- No answer is described by two endings. -/
theorem Ending.describes_unique {r : Request} {answer : Answer (Attempt String (Option User))}
    {first second : Ending} (h : first.Describes r answer) (h' : second.Describes r answer) :
    first = second := by
  obtain ⟨outcome, actions⟩ := answer
  -- two endings differ in what is returned, or in the first thing done to the response
  cases first <;> cases second
  case admitted.admitted | challenged.challenged | broken.broken | failed.failed => rfl
  all_goals
    exfalso
    simp only [Describes] at h h'
    grind

theorem Ending.outcome_ne_panic {r : Request} {answer : Answer (Attempt String (Option User))}
    {ending : Ending} (h : ending.Describes r answer) (p : Panic) : answer.outcome ≠ .panic p := by
  intro hp
  cases ending with
  | admitted =>
    obtain ⟨user, -, houtcome, -⟩ := h
    exact nomatch hp.symm.trans houtcome
  | challenged => exact nomatch hp.symm.trans h.1
  | broken => exact nomatch hp.symm.trans h.1
  | failed =>
    obtain ⟨⟨reason, houtcome⟩, -⟩ := h
    exact nomatch hp.symm.trans houtcome

/-- An answer that nothing has trapped: it is an ending, or a panic that struck before anything was
done to the response, which cannot be where all is `safe`. -/
inductive Untrapped (r : Request) (safe : Prop) : Answer (Attempt String (Option User)) → Prop
  | ended {answer} (ending : Ending) (hmem : ending ∈ [.failed, .admitted, .challenged])
      (hdescribes : ending.Describes r answer) : Untrapped r safe answer
  | unwound (p : Panic) (hrisk : ¬ safe) : Untrapped r safe ⟨.panic p, []⟩

/-- A challenge whose status says that the request is bad or not authenticated. -/
def Challenge.Refuses (c : Challenge) : Prop := c.status = 400 ∨ c.status = 401

theorem Challenge.refuses_ofError (error : VerificationError) : (ofError error).Refuses := by
  cases error
  case unsupported => exact .inl rfl
  all_goals exact .inr rfl

namespace Engine

theorem hasCredentials_ne_panic {r : Request} (h : r.NeverPanics) (looks : Nat)
    (sources : List HeaderSource) (p : Panic) : hasCredentials r looks sources ≠ .panic p := by
  induction sources generalizing looks with
  | nil => exact nofun
  | cons source rest ih =>
    intro hp
    rcases (Attempt.bind_eq_panic_iff _ _ _).mp hp with hp | ⟨values, -, hp⟩
    · exact h.headerValues looks source.header p hp
    · split at hp
      · exact nomatch hp
      · exact ih (looks + 1) hp

theorem candidatesOf_ne_panic {r : Request} (h : r.NeverPanics) (looks : Nat)
    (sources : List HeaderSource) (p : Panic) : candidatesOf r looks sources ≠ .panic p := by
  induction sources generalizing looks with
  | nil => exact nofun
  | cons source rest ih =>
    intro hp
    rcases (Attempt.bind_eq_panic_iff _ _ _).mp hp with hp | ⟨values, -, hp⟩
    · exact h.headerValues looks source.header p hp
    · rcases (Attempt.bind_eq_panic_iff _ _ _).mp hp with hp | ⟨candidates, -, hp⟩
      · exact ih (looks + 1) hp
      · exact nomatch hp

/-- The verification of candidates leaves challenges that may be sent, or the verifier panicked. -/
theorem verifyAll_cases (v : Verifier) (candidates : List TokenCandidate) (w : Surroundings)
    (s : ProcessState) :
    (∃ tokens challenges, (verifyAll v candidates w s).1.1 = .ok (tokens, challenges) ∧
      ∀ c ∈ challenges, c.Refuses) ∨
    ∃ p, (verifyAll v candidates w s).1.1 = .panic p ∧ ¬ v.NeverPanics := by
  -- each candidate is put to the verifier that the one before it left behind
  induction candidates generalizing v s with
  | nil => exact .inl ⟨[], [], rfl, List.forall_mem_nil _⟩
  | cons c rest ih =>
    rw [verifyAll_cons]
    cases c.token? with
    | none =>
      obtain ⟨tokens, challenges, hrest, hall⟩ | ⟨p, hrest, hrisk⟩ := ih v s
      · rw [hrest]
        exact .inl ⟨_, _, rfl, List.forall_mem_cons.mpr ⟨.inl rfl, hall⟩⟩
      · rw [hrest]
        exact .inr ⟨p, rfl, hrisk⟩
    | some token =>
      dsimp only
      -- a verifier that never panics does not turn into one that does
      have hrisk_of_next : ¬ (v.verify token w s).1.2.NeverPanics → ¬ v.NeverPanics :=
        mt fun h => h.next token w s
      have hrest := ih (v.verify token w s).1.2 (v.verify token w s).2
      cases hverdict : (v.verify token w s).1.1 with
      | panic p => exact .inr ⟨p, rfl, fun h => h.verify token w s p hverdict⟩
      | ok claims =>
        obtain ⟨tokens, challenges, hrest, hall⟩ | ⟨p, hrest, hrisk⟩ := hrest
        · rw [hrest]
          exact .inl ⟨_, _, rfl, hall⟩
        · rw [hrest]
          exact .inr ⟨p, rfl, hrisk_of_next hrisk⟩
      | error error =>
        obtain ⟨tokens, challenges, hrest, hall⟩ | ⟨p, hrest, hrisk⟩ := hrest
        · rw [hrest]
          have hfirst := Challenge.refuses_ofError error
          exact .inl ⟨_, _, rfl, List.forall_mem_cons.mpr ⟨hfirst, hall⟩⟩
        · rw [hrest]
          exact .inr ⟨p, rfl, hrisk_of_next hrisk⟩

variable (e : Engine) (r : Request) (v : Verifier)

/-- A challenge is sent whole, or the search for its realm panics. -/
theorem untrapped_sendChallenge {c : Challenge} (h : c.Refuses) :
    Untrapped r (r.NeverPanics ∧ v.NeverPanics) (e.sendChallenge r c) := by
  unfold sendChallenge
  cases hrealm : e.realmFor r with
  | ok realm => exact .ended .challenged (by simp) ⟨rfl, c.status, c.header realm, h, rfl⟩
  | error x => exact nomatch x
  | panic p =>
    refine .unwound p fun hsafe => ?_
    unfold realmFor at hrealm
    cases hconfigured : e.realm with
    | some realm => simp only [hconfigured, reduceCtorEq] at hrealm
    | none =>
      rw [hconfigured] at hrealm
      exact hsafe.1.address p hrealm

theorem untrapped_settled {tokens : List VerifiedToken} {challenges : List Challenge}
    (h : ∀ c ∈ challenges, c.Refuses) :
    Untrapped r (r.NeverPanics ∧ v.NeverPanics) (e.settled r tokens challenges) := by
  unfold settled
  cases e.winner? tokens with
  | none =>
    -- the challenge that is sent is one of the list or, of an empty list, the default
    have hall : ∀ c ∈ challenges ++ tokens.map (fun _ => Challenge.noUsername), c.Refuses := by
      intro c hc
      rcases List.mem_append.mp hc with hc | hc
      · exact h c hc
      · obtain ⟨_, -, rfl⟩ := List.mem_map.mp hc
        exact .inr rfl
    have hfirst :
        ((challenges ++ tokens.map fun _ => Challenge.noUsername).headD .noToken).Refuses := by
      revert hall
      cases challenges ++ tokens.map fun _ => Challenge.noUsername with
      | nil => exact fun _ => .inl rfl
      | cons c rest => exact fun hall => hall c List.mem_cons_self
    exact untrapped_sendChallenge e r v hfirst
  | some won =>
    obtain ⟨token, username⟩ := won
    dsimp only
    cases hattach : r.attach (e.userOf token username) with
    | ok u => exact .ended .admitted (by simp) ⟨_, hattach, rfl, rfl⟩
    | error reason => exact .ended .failed (by simp) ⟨⟨reason, rfl⟩, rfl⟩
    | panic p => exact .unwound p fun hsafe => hsafe.1.attach _ p hattach

/-- Without a trap a request is admitted or challenged, or it fails with the response untouched. -/
theorem untrapped_attempt (w : Surroundings) (s : ProcessState) :
    Untrapped r (r.NeverPanics ∧ v.NeverPanics) (e.attempt r v w s).1.1 := by
  -- up to the verdicts the response is untouched, so a panic there leaves it untouched
  unfold attempt
  cases hrequired : e.hasRequiredParameters r with
  | error x => exact nomatch x
  | panic p =>
    refine .unwound p fun hsafe => ?_
    exact hasCredentials_ne_panic hsafe.1 0 e.sources p hrequired
  | ok found =>
    obtain ⟨present, looks⟩ := found
    cases present with
    | false => exact untrapped_sendChallenge e r v (.inr rfl)
    | true =>
      dsimp only
      cases hcandidates : e.candidates r looks with
      | error x => exact nomatch x
      | panic p =>
        refine .unwound p fun hsafe => ?_
        exact candidatesOf_ne_panic hsafe.1 looks e.sources p hcandidates
      | ok candidates =>
        cases candidates with
        | nil => exact untrapped_sendChallenge e r v (.inl rfl)
        | cons c rest =>
          dsimp only [Run.bind_apply]
          have hverdicts := verifyAll_cases v (c :: rest) w s
          revert hverdicts
          generalize verifyAll v (c :: rest) w s = result
          obtain ⟨⟨verdicts, v'⟩, s'⟩ := result
          rintro (⟨tokens, challenges, rfl : verdicts = _, hall⟩ | ⟨p, rfl : verdicts = _, hrisk⟩)
          · change Untrapped _ _ (e.settle r tokens challenges w s').1
            rw [settle_eq_settled]
            exact untrapped_settled e r v hall
          · exact .unwound p fun hsafe => hrisk hsafe.2

variable {e r} in
/-- The trap leaves what has ended well as it is; all else ends as in a broken server. -/
theorem describes_finish {safe : Prop} {answer : Answer (Attempt String (Option User))}
    (htrap : e.trapErrors = true) (h : Untrapped r safe answer) :
    ∃ ending : Ending, ending ∈ [.admitted, .challenged, .broken] ∧
      ending.Describes r (e.finish answer) := by
  cases h with
  | unwound p _ =>
    have hfinish : e.finish ⟨.panic p, []⟩ = ⟨.ok none, [.sendError 500 unexpectedError]⟩ := by
      rw [finish, htrap]
      rfl
    rw [hfinish]
    exact ⟨.broken, by simp, rfl, rfl⟩
  | ended ending hmem h =>
    obtain ⟨outcome, actions⟩ := answer
    cases ending with
    | admitted =>
      obtain ⟨user, hattach, houtcome, hactions⟩ := h
      rw [e.finish_of_ok houtcome]
      exact ⟨.admitted, by simp, user, hattach, houtcome, hactions⟩
    | challenged =>
      rw [e.finish_of_ok h.1]
      exact ⟨.challenged, by simp, h⟩
    | broken => simp at hmem
    | failed =>
      obtain ⟨⟨reason, rfl : outcome = _⟩, rfl : actions = _⟩ := h
      have hfinish :
          e.finish ⟨.error reason, []⟩ = ⟨.ok none, [.sendError 500 unexpectedError]⟩ := by
        rw [finish, htrap]
        rfl
      rw [hfinish]
      exact ⟨.broken, by simp, rfl, rfl⟩

/-- With errors trapped, a request is admitted with its response untouched, or challenged, or
answered as by a broken server. Without, nothing unwinds if nothing can panic; and where nothing
unwinds the request is admitted or challenged, or the caller has the error of a response that is
untouched. -/
theorem authenticate_ends (w : Surroundings) (s : ProcessState) :
    let answer := (e.authenticate r v w s).1.1
    (e.trapErrors = true →
      ∃! ending : Ending, ending ∈ [.admitted, .challenged, .broken] ∧
        ending.Describes r answer) ∧
    (e.trapErrors = false →
      (r.NeverPanics → v.NeverPanics → ∀ p, answer.outcome ≠ .panic p) ∧
      ((∀ p, answer.outcome ≠ .panic p) →
        ∃! ending : Ending, ending ∈ [.failed, .admitted, .challenged] ∧
          ending.Describes r answer)) := by
  have hattempt := untrapped_attempt e r v w s
  rw [authenticate_eq_finish]
  constructor
  · intro htrap
    obtain ⟨ending, hmem, h⟩ := describes_finish htrap hattempt
    exact ⟨ending, ⟨hmem, h⟩, fun _ h' => Ending.describes_unique h'.2 h⟩
  · intro htrap
    have hfinish : ∀ answer, e.finish answer = answer := by
      intro answer
      rw [finish, htrap]
    rw [hfinish]
    generalize (e.attempt r v w s).1.1 = answer at hattempt
    cases hattempt with
    | unwound p hrisk => exact ⟨fun hr hv => absurd ⟨hr, hv⟩ hrisk, fun h => absurd rfl (h p)⟩
    | ended ending hmem h =>
      refine ⟨fun _ _ => Ending.outcome_ne_panic h, fun _ => ⟨ending, ⟨hmem, h⟩, ?_⟩⟩
      exact fun _ h' => Ending.describes_unique h'.2 h

/-- A request with a ticket, at an application that has no room for its user. -/
def turnedAway : Request :=
  { Request.ofFields [("Authorization", "Bearer ticket")] "/" "http://app/" with
    attach := fun _ => .error "no room" }

/-- A verifier for which every token is Ann's. -/
def doorkeeper : Verifier := .custom "doorkeeper" 0 fun _ _ => .ok ⟨[("sub", .string "ann")]⟩

/-- The error of the application is trapped, or is the caller's. -/
theorem authenticate_ends_turnedAway :
    (∃! ending : Ending, ending ∈ [.admitted, .challenged, .broken] ∧
      ending.Describes turnedAway (standard.authenticate turnedAway doorkeeper midnight {}).1.1) ∧
    turnedAway.NeverPanics ∧ doorkeeper.NeverPanics ∧
      ∃! ending : Ending, ending ∈ [.failed, .admitted, .challenged] ∧
        ending.Describes turnedAway
          ({ standard with trapErrors := false }.authenticate turnedAway doorkeeper
            midnight {}).1.1 := by
  have hrequest : turnedAway.NeverPanics := ⟨nofun, nofun, nofun⟩
  have hverifier : doorkeeper.NeverPanics := (Verifier.isFunction_custom _ _ _).neverPanics nofun
  obtain ⟨htrapped, -⟩ := authenticate_ends standard turnedAway doorkeeper midnight {}
  obtain ⟨-, huntrapped⟩ :=
    authenticate_ends { standard with trapErrors := false } turnedAway doorkeeper midnight {}
  obtain ⟨hnever, hends⟩ := huntrapped rfl
  exact ⟨htrapped rfl, hrequest, hverifier, hends (hnever hrequest hverifier)⟩

end Engine

end BearerAuth

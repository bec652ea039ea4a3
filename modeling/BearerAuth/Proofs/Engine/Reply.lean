import Mathlib.Tactic.Common
import BearerAuth.Engine

/-! The answer to a request under a verifier whose word on a token is a function of the token. It is
then a function of the request as well: the run of the engine neither depends on what the process
did before nor on what the verifier was asked before. -/

namespace BearerAuth

/-- A process at the start of its time, without files, variables or a network. -/
def midnight : Surroundings := ⟨0, default, {}, [], fun _ => .dropped, {}⟩

namespace Verifier

/-- What a verifier says of tokens in turn, each asked about at a moment of its own. -/
def verdicts : Verifier → List (String × Surroundings × ProcessState) →
    List (Attempt VerificationError Claims)
  | _, [] => []
  | v, (raw, w, s) :: calls => (v.verify raw w s).1.1 :: verdicts (v.verify raw w s).1.2 calls

/-- A verifier whose word on a token is a function of the token and of what surrounds the process,
whatever it was asked before and whatever the process did. -/
def IsFunction (v : Verifier)
    (answer : Surroundings → String → Attempt VerificationError Claims) : Prop :=
  ∀ calls, v.verdicts calls = calls.map fun call => answer call.2.1 call.1

/-- A verifier that panics on no token, whatever it was asked before. -/
def NeverPanics (v : Verifier) : Prop := ∀ calls p, .panic p ∉ v.verdicts calls

variable {v : Verifier} {answer : Surroundings → String → Attempt VerificationError Claims}

theorem IsFunction.verify (h : v.IsFunction answer) (raw : String) (w : Surroundings)
    (s : ProcessState) : (v.verify raw w s).1.1 = answer w raw :=
  List.head_eq_of_cons_eq (h [(raw, w, s)])

theorem IsFunction.next (h : v.IsFunction answer) (raw : String) (w : Surroundings)
    (s : ProcessState) : (v.verify raw w s).1.2.IsFunction answer := by
  intro calls
  exact List.tail_eq_of_cons_eq (h ((raw, w, s) :: calls))

theorem NeverPanics.verify (h : v.NeverPanics) (raw : String) (w : Surroundings)
    (s : ProcessState) (p : Panic) : (v.verify raw w s).1.1 ≠ .panic p := by
  intro hp
  exact h [(raw, w, s)] p (List.mem_singleton.mpr hp.symm)

theorem NeverPanics.next (h : v.NeverPanics) (raw : String) (w : Surroundings)
    (s : ProcessState) : (v.verify raw w s).1.2.NeverPanics := by
  intro calls p hp
  exact h ((raw, w, s) :: calls) p (List.mem_cons_of_mem _ hp)

theorem IsFunction.neverPanics (h : v.IsFunction answer)
    (hp : ∀ w raw p, answer w raw ≠ .panic p) : v.NeverPanics := by
  intro calls p hmem
  rw [h calls] at hmem
  obtain ⟨call, -, hcall⟩ := List.mem_map.mp hmem
  exact hp _ _ p hcall

/-- A verifier that has an answer for each token, however often it was asked. -/
theorem isFunction_custom (name : String) (asked : Nat)
    (answer : String → Attempt VerificationError Claims) :
    (custom name asked fun _ => answer).IsFunction fun _ => answer := by
  intro calls
  induction calls generalizing asked with
  | nil => rfl
  | cons call calls ih => exact congrArg _ (ih (asked + 1))

/-- The holder of a key learns nothing, so its word on a token at a time is always the same. -/
theorem isFunction_of_direct {v : SignedVerifier} {key : DirectKey}
    (h : v.locator = .direct key) :
    (signed v).IsFunction fun w raw => (v.verify raw w {}).1.1 := by
  -- neither the answer nor the verifier afterwards depends on what the process did
  have hverify : ∀ raw w s, (v.verify raw w s).1 = ((v.verify raw w {}).1.1, v) := by
    intro raw w s
    obtain ⟨locator, _, _, _, _⟩ := v
    cases h
    unfold SignedVerifier.verify
    cases ParsedToken.parse _ raw with
    | error e => rfl
    | ok token =>
      simp only [KeyLocator.locate, Run.bind_apply, Run.pure_apply]
      cases key.locate token.header <;> rfl
  intro calls
  induction calls with
  | nil => rfl
  | cons call calls ih =>
    obtain ⟨raw, w, s⟩ := call
    have hsigned : ((signed v).verify raw w s).1 = ((v.verify raw w {}).1.1, signed v) :=
      congrArg (fun result => (result.1, signed result.2)) (hverify raw w s)
    rw [verdicts, hsigned, List.map_cons, ih]

end Verifier

namespace Engine

/-- What the verification of candidates comes to by a judge of tokens. -/
def judged (judge : String → Attempt VerificationError Claims) :
    List TokenCandidate → Attempt Empty (List VerifiedToken × List Challenge)
  | [] => .ok ([], [])
  | c :: rest =>
    match c.token? with
    | none => (judged judge rest).bind fun (tokens, challenges) =>
      .ok (tokens, .noToken :: challenges)
    | some token =>
      match judge token with
      | .panic p => .panic p
      | .ok claims => (judged judge rest).bind fun (tokens, challenges) =>
        .ok (⟨token, c, claims⟩ :: tokens, challenges)
      | .error error => (judged judge rest).bind fun (tokens, challenges) =>
        .ok (tokens, .ofError error :: challenges)

/-- What the engine makes of verified tokens and of the challenges of the other candidates. -/
def settled (e : Engine) (r : Request) (tokens : List VerifiedToken)
    (challenges : List Challenge) : Answer (Attempt String (Option User)) :=
  match e.winner? tokens with
  | some (token, username) =>
    ⟨(r.attach (e.userOf token username)).bind fun () => .ok (some (e.userOf token username)), []⟩
  | none =>
    e.sendChallenge r ((challenges ++ tokens.map fun _ => Challenge.noUsername).headD .noToken)

/-- The answer to a request by a judge of tokens, with errors and panics left as they are. -/
def ruling (e : Engine) (judge : String → Attempt VerificationError Claims) (r : Request) :
    Answer (Attempt String (Option User)) :=
  match e.hasRequiredParameters r with
  | .panic p => ⟨.panic p, []⟩
  | .ok (false, _) => e.sendChallenge r .noCredentials
  | .ok (true, looks) =>
    match e.candidates r looks with
    | .panic p => ⟨.panic p, []⟩
    | .ok [] => e.sendChallenge r .noToken
    | .ok (c :: rest) =>
      match judged judge (c :: rest) with
      | .panic p => ⟨.panic p, []⟩
      | .ok (tokens, challenges) => e.settled r tokens challenges

/-- What is sent instead of an error or a panic if these are trapped. -/
def finish (e : Engine) (answer : Answer (Attempt String (Option User))) :
    Answer (Attempt String (Option User)) :=
  match e.trapErrors, answer.outcome with
  | true, .error _ => ⟨.ok none, answer.actions ++ [.sendError 500 unexpectedError]⟩
  | true, .panic _ => ⟨.ok none, answer.actions ++ [.sendError 500 unexpectedError]⟩
  | _, _ => answer

theorem finish_of_ok (e : Engine) {answer : Answer (Attempt String (Option User))}
    {user : Option User} (h : answer.outcome = .ok user) : e.finish answer = answer := by
  unfold finish
  rw [h]
  cases e.trapErrors <;> rfl

theorem settle_eq_settled (e : Engine) (r : Request) (tokens : List VerifiedToken)
    (challenges : List Challenge) (w : Surroundings) (s : ProcessState) :
    (e.settle r tokens challenges w s).1 = e.settled r tokens challenges := by
  unfold settle settled
  cases e.winner? tokens with
  | none => rfl
  | some won => rfl

theorem authenticate_eq_finish (e : Engine) (r : Request) (v : Verifier) (w : Surroundings)
    (s : ProcessState) :
    (e.authenticate r v w s).1 = (e.finish (e.attempt r v w s).1.1, (e.attempt r v w s).1.2) := by
  unfold authenticate finish
  rw [Run.bind_apply]
  rcases (e.attempt r v w s) with ⟨⟨⟨outcome, actions⟩, v'⟩, s'⟩
  cases e.trapErrors with
  | false => rfl
  | true => cases outcome <;> rfl

/-- A step of the verification of candidates, by what the verifier says of the first. -/
theorem verifyAll_cons (v : Verifier) (c : TokenCandidate) (rest : List TokenCandidate)
    (w : Surroundings) (s : ProcessState) :
    (verifyAll v (c :: rest) w s).1.1 =
      match c.token? with
      | none => (verifyAll v rest w s).1.1.bind fun (tokens, challenges) =>
        .ok (tokens, Challenge.noToken :: challenges)
      | some token =>
        let (v', s') := ((v.verify token w s).1.2, (v.verify token w s).2)
        match (v.verify token w s).1.1 with
        | .panic p => .panic p
        | .ok claims => (verifyAll v' rest w s').1.1.bind fun (tokens, challenges) =>
          .ok (⟨token, c, claims⟩ :: tokens, challenges)
        | .error error => (verifyAll v' rest w s').1.1.bind fun (tokens, challenges) =>
          .ok (tokens, Challenge.ofError error :: challenges) := by
  rw [verifyAll]
  cases c.token? with
  | none => rfl
  | some token =>
    dsimp only [Run.bind_apply]
    cases (v.verify token w s).1.1 <;> rfl

variable {v : Verifier} {answer : Surroundings → String → Attempt VerificationError Claims}

theorem verifyAll_eq_judged (h : v.IsFunction answer) (candidates : List TokenCandidate)
    (w : Surroundings) (s : ProcessState) :
    (verifyAll v candidates w s).1.1 = judged (answer w) candidates ∧
      (verifyAll v candidates w s).1.2.IsFunction answer := by
  -- the verifier that a candidate leaves behind is the same function
  induction candidates generalizing v s with
  | nil => exact ⟨rfl, h⟩
  | cons c rest ih =>
    unfold verifyAll judged
    cases c.token? with
    | none =>
      obtain ⟨hrest, hnext⟩ := ih h s
      refine ⟨?_, hnext⟩
      dsimp only [Run.bind_apply, Run.pure_apply]
      rw [hrest]
    | some token =>
      dsimp only [Run.bind_apply]
      rw [h.verify token w s]
      have hnext := h.next token w s
      obtain ⟨hrest, hfunction⟩ := ih hnext (v.verify token w s).2
      cases answer w token with
      | panic p => exact ⟨rfl, hnext⟩
      | ok claims =>
        refine ⟨?_, hfunction⟩
        dsimp only [Run.bind_apply, Run.pure_apply]
        rw [hrest]
      | error error =>
        refine ⟨?_, hfunction⟩
        dsimp only [Run.bind_apply, Run.pure_apply]
        rw [hrest]

theorem attempt_eq_ruling (e : Engine) (r : Request) (h : v.IsFunction answer) (w : Surroundings)
    (s : ProcessState) :
    (e.attempt r v w s).1.1 = e.ruling (answer w) r ∧
      (e.attempt r v w s).1.2.IsFunction answer := by
  unfold attempt ruling
  rcases e.hasRequiredParameters r with ⟨_ | _, looks⟩ | x | p
  · exact ⟨rfl, h⟩
  · dsimp only
    rcases e.candidates r looks with (_ | ⟨c, rest⟩) | x | p
    · exact ⟨rfl, h⟩
    · obtain ⟨hjudged, hnext⟩ := verifyAll_eq_judged h (c :: rest) w s
      dsimp only [Run.bind_apply]
      rw [← hjudged]
      revert hnext
      rcases verifyAll v (c :: rest) w s with ⟨⟨⟨tokens, challenges⟩ | x | p, v'⟩, s'⟩ <;>
        intro hnext
      · exact ⟨settle_eq_settled e r tokens challenges w s', hnext⟩
      · exact nomatch x
      · exact ⟨rfl, hnext⟩
    · exact nomatch x
    · exact ⟨rfl, h⟩
  · exact nomatch x
  · exact ⟨rfl, h⟩

/-- The answer to a request, under a verifier that is a function of the token, is a function of the
request; and the verifier stays that function. -/
theorem authenticate_eq_ruling (e : Engine) (r : Request) (h : v.IsFunction answer)
    (w : Surroundings) (s : ProcessState) :
    (e.authenticate r v w s).1.1 = e.finish (e.ruling (answer w) r) ∧
      (e.authenticate r v w s).1.2.IsFunction answer := by
  obtain ⟨hruling, hnext⟩ := e.attempt_eq_ruling r h w s
  rw [authenticate_eq_finish]
  exact ⟨congrArg e.finish hruling, hnext⟩

end Engine

end BearerAuth

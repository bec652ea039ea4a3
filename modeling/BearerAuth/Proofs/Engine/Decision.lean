import Mathlib
import BearerAuth.Proofs.Claims.Paths
import BearerAuth.Proofs.Engine.Reply

namespace BearerAuth

section First

variable {α β : Type} {f : α → Option β} {P : α → β → Prop}

/-- The first item of a list that stands in a relation to anything stands in it to this. -/
def First (P : α → β → Prop) (xs : List α) (b : β) : Prop :=
  ∃ before x after, xs = before ++ x :: after ∧ P x b ∧
    ∀ earlier ∈ before, ∀ other, ¬ P earlier other

theorem eq_none_iff_of_eq_some_iff {o : Option β} {Q : β → Prop} (h : ∀ b, o = some b ↔ Q b) :
    o = none ↔ ∀ b, ¬ Q b := by
  rw [Option.eq_none_iff_forall_ne_some]
  exact forall_congr' fun b => not_congr (h b)

variable (h : ∀ x b, f x = some b ↔ P x b) (xs : List α)
include h

/-- A search by a function that decides a relation finds the first item of the relation. -/
theorem findSome?_eq_some_iff_first (b : β) : xs.findSome? f = some b ↔ First P xs b := by
  have hnone : ∀ x, f x = none ↔ ∀ other, ¬ P x other := fun x => eq_none_iff_of_eq_some_iff (h x)
  simp only [List.findSome?_eq_some_iff, First, h, hnone]

theorem findSome?_eq_none_iff_of : xs.findSome? f = none ↔ ∀ x ∈ xs, ∀ b, ¬ P x b := by
  rw [List.findSome?_eq_none_iff]
  exact forall₂_congr fun x _ => eq_none_iff_of_eq_some_iff (h x)

theorem exists_first_of_exists (hexists : ∃ x ∈ xs, ∃ b, P x b) : ∃ b, First P xs b := by
  cases hfound : xs.findSome? f with
  | some b => exact ⟨b, (findSome?_eq_some_iff_first h xs b).mp hfound⟩
  | none =>
    obtain ⟨x, hx, b, hb⟩ := hexists
    exact absurd hb ((findSome?_eq_none_iff_of h xs).mp hfound x hx b)

end First

/-- A claim names a user if it is a text that is not blank. -/
def Names (claim : Option Json) (name : String) : Prop :=
  claim = some (.string name) ∧ Text.isBlank name = false

theorem bind_usableName?_eq_some_iff (claim : Option Json) (name : String) :
    claim.bind Engine.usableName? = some name ↔ Names claim name := by
  unfold Names
  cases claim with
  | none => simp
  | some value =>
    cases value with
    | string s =>
      simp only [Option.bind_some, Engine.usableName?, Option.some.injEq, Json.string.injEq]
      cases hblank : Text.isBlank s with
      | true =>
        simp only [if_true, reduceCtorEq, false_iff, not_and]
        rintro rfl
        simp [hblank]
      | false =>
        simp only [Bool.false_eq_true, if_false, Option.some.injEq]
        constructor
        · rintro rfl
          exact ⟨rfl, hblank⟩
        · exact And.left
    | _ => simp [Engine.usableName?]

/-- The values of the headers of sources, each a candidate: in the order of the sources, and within
a source in the order of the header. -/
def occurrences (values : String → List String) (sources : List HeaderSource) :
    List TokenCandidate :=
  sources.flatMap fun source => (values source.header).map fun value => ⟨source, some value⟩

/-- A header of one of some sources has a value that is not blank. -/
def Offers (values : String → List String) (sources : List HeaderSource) : Prop :=
  ∃ source ∈ sources, ∃ value ∈ values source.header, Text.isBlank value = false

/-- What speaks against a candidate: it holds no token, or one that does not verify. -/
inductive AtFault (judge : String → Attempt VerificationError Claims) (c : TokenCandidate) :
    Challenge → Prop
  | missing (h : c.token? = none) :
      AtFault judge c ⟨400, "invalid_request", "No Bearer token(s) provided"⟩
  | refused {token : String} {error : VerificationError} (h : c.token? = some token)
      (hjudge : judge token = .error error) : AtFault judge c (.ofError error)

namespace Engine

/-- The name of the user in claims: what the first configured claim that names a user says, or the
subject if there is no such claim. -/
def IsUsername (e : Engine) (claims : Claims) (name : String) : Prop :=
  First (fun path => Names (path.find? claims)) e.usernameClaims name ∨
    (∀ path ∈ e.usernameClaims, ∀ other, ¬ Names (path.find? claims) other) ∧
      Names (claims.get? "sub") name

/-- A candidate says who the user is: it holds a token that verifies, and the claims name the
user. -/
def Identifies (e : Engine) (judge : String → Attempt VerificationError Claims)
    (c : TokenCandidate) (user : User) : Prop :=
  ∃ token claims name, c.token? = some token ∧ judge token = .ok claims ∧
    e.IsUsername claims name ∧ user = ⟨name, token, c.source, claims, e.rolesClaim⟩

/-- The challenge that is due to a request without a user: the bare one if it offers nothing, else
that of its first candidate at fault, else that of claims without a name. -/
inductive Due (e : Engine) (values : String → List String)
    (judge : String → Attempt VerificationError Claims) : Challenge → Prop
  | bare (h : ¬ Offers values e.sources) : Due e values judge ⟨401, "", ""⟩
  | fault {challenge : Challenge} (h : Offers values e.sources)
      (hfirst : First (AtFault judge) (occurrences values e.sources) challenge) :
      Due e values judge challenge
  | nameless (h : Offers values e.sources)
      (hnone : ∀ c ∈ occurrences values e.sources, ∀ challenge, ¬ AtFault judge c challenge) :
      Due e values judge ⟨401, "invalid_token", "Failed to find a username for the user"⟩

theorem username?_eq_some_iff (e : Engine) (claims : Claims) (name : String) :
    e.username? claims = some name ↔ e.IsUsername claims name := by
  have hnames : ∀ (path : ClaimPath) name,
      (path.find? claims).bind usableName? = some name ↔ Names (path.find? claims) name :=
    fun path => bind_usableName?_eq_some_iff (path.find? claims)
  unfold username? IsUsername
  rw [Option.or_eq_some_iff, findSome?_eq_some_iff_first hnames, findSome?_eq_none_iff_of hnames,
    bind_usableName?_eq_some_iff]

section Candidates

variable {r : Request} {values : String → List String}
  (hr : ∀ looks name, r.headerValues looks name = .ok (values name))
include hr

theorem hasCredentials_eq (looks : Nat) (sources : List HeaderSource) :
    ∃ looks' present, hasCredentials r looks sources = .ok (present, looks') ∧
      (present = true ↔ Offers values sources) := by
  -- headers after the first that offers something are not looked at
  induction sources generalizing looks with
  | nil => exact ⟨looks, false, rfl, by simp [Offers]⟩
  | cons source rest ih =>
    unfold hasCredentials
    rw [hr, Attempt.bind_ok]
    have hany : ((values source.header).any fun v => !Text.isBlank v) = true ↔
        ∃ value ∈ values source.header, Text.isBlank value = false := by
      simp
    split
    · next hhere =>
      refine ⟨looks + 1, true, rfl, iff_of_true rfl ?_⟩
      exact ⟨source, List.mem_cons_self, hany.mp hhere⟩
    · next hhere =>
      obtain ⟨looks', present, hrest, hiff⟩ := ih (looks + 1)
      refine ⟨looks', present, hrest, hiff.trans ?_⟩
      have hno := mt hany.mpr hhere
      simp only [Offers, List.mem_cons, exists_eq_or_imp]
      exact ⟨.inr, fun h => h.resolve_left hno⟩

theorem candidatesOf_eq (looks : Nat) (sources : List HeaderSource) :
    candidatesOf r looks sources = .ok (occurrences values sources) := by
  induction sources generalizing looks with
  | nil => rfl
  | cons source rest ih =>
    unfold candidatesOf
    rw [hr, Attempt.bind_ok, ih, Attempt.bind_ok]
    rfl

omit hr in
theorem occurrences_ne_nil {sources : List HeaderSource} (h : Offers values sources) :
    occurrences values sources ≠ [] := by
  obtain ⟨source, hsource, value, hvalue, -⟩ := h
  have hmem : ⟨source, some value⟩ ∈ occurrences values sources := by
    refine List.mem_flatMap.mpr ⟨source, hsource, ?_⟩
    exact List.mem_map.mpr ⟨value, hvalue, rfl⟩
  exact List.ne_nil_of_mem hmem

end Candidates

/-- The verified token of a candidate. -/
def verified? (judge : String → Attempt VerificationError Claims) (c : TokenCandidate) :
    Option VerifiedToken :=
  c.token?.bind fun token =>
    match judge token with
    | .ok claims => some ⟨token, c, claims⟩
    | _ => none

/-- The challenge of a candidate that is not verified. -/
def fault? (judge : String → Attempt VerificationError Claims) (c : TokenCandidate) :
    Option Challenge :=
  match c.token? with
  | none => some .noToken
  | some token =>
    match judge token with
    | .error error => some (.ofError error)
    | _ => none

section Judged

variable {judge : String → Attempt VerificationError Claims}

theorem fault?_eq_some_iff (c : TokenCandidate) (challenge : Challenge) :
    fault? judge c = some challenge ↔ AtFault judge c challenge := by
  unfold fault?
  constructor
  · intro h
    split at h
    · next htoken =>
      cases h
      exact .missing htoken
    · next token htoken =>
      split at h
      · next error hjudge =>
        cases h
        exact .refused htoken hjudge
      · exact nomatch h
  · intro h
    cases h with
    | missing htoken =>
      rw [htoken]
      rfl
    | refused htoken hjudge =>
      rw [htoken]
      dsimp only
      rw [hjudge]

theorem judged_eq (hp : ∀ raw p, judge raw ≠ .panic p) (candidates : List TokenCandidate) :
    judged judge candidates =
      .ok (candidates.filterMap (verified? judge), candidates.filterMap (fault? judge)) := by
  induction candidates with
  | nil => rfl
  | cons c rest ih =>
    rw [judged, ih]
    cases htoken : c.token? with
    | none => simp [verified?, fault?, htoken, Attempt.bind]
    | some token =>
      cases hjudge : judge token with
      | ok claims => simp [verified?, fault?, htoken, hjudge, Attempt.bind]
      | error error => simp [verified?, fault?, htoken, hjudge, Attempt.bind]
      | panic p => exact absurd hjudge (hp token p)

theorem verified?_isSome_of_fault? (hp : ∀ raw p, judge raw ≠ .panic p) {c : TokenCandidate}
    (h : fault? judge c = none) : ∃ token, verified? judge c = some token := by
  unfold fault? at h
  cases htoken : c.token? with
  | none => simp [htoken] at h
  | some token =>
    cases hjudge : judge token with
    | ok claims => exact ⟨_, by simp [verified?, htoken, hjudge]; rfl⟩
    | error error => simp [htoken, hjudge] at h
    | panic p => exact absurd hjudge (hp token p)

theorem verified?_eq_some_iff (c : TokenCandidate) (t : VerifiedToken) :
    verified? judge c = some t ↔
      ∃ token claims, c.token? = some token ∧ judge token = .ok claims ∧
        ⟨token, c, claims⟩ = t := by
  unfold verified?
  cases c.token? with
  | none => simp
  | some token => cases hjudge : judge token <;> simp [hjudge]

/-- The user of a candidate. -/
def identity? (e : Engine) (judge : String → Attempt VerificationError Claims)
    (c : TokenCandidate) : Option User :=
  (verified? judge c).bind fun t => (e.username? t.claims).map (e.userOf t)

theorem identity?_eq_some_iff (e : Engine) (c : TokenCandidate) (user : User) :
    e.identity? judge c = some user ↔ e.Identifies judge c user := by
  simp only [identity?, Option.bind_eq_some_iff, Option.map_eq_some_iff, verified?_eq_some_iff,
    username?_eq_some_iff]
  constructor
  · rintro ⟨_, ⟨token, claims, htoken, hjudge, rfl⟩, name, hname, rfl⟩
    exact ⟨token, claims, name, htoken, hjudge, hname, rfl⟩
  · rintro ⟨token, claims, name, htoken, hjudge, hname, rfl⟩
    exact ⟨_, ⟨token, claims, htoken, hjudge, rfl⟩, name, hname, rfl⟩

theorem winner?_filterMap_verified? (e : Engine) (candidates : List TokenCandidate) :
    (e.winner? (candidates.filterMap (verified? judge))).map (fun won => e.userOf won.1 won.2) =
      candidates.findSome? (e.identity? judge) := by
  -- both searches are the head of what is left of the candidates, so it is enough to compare one
  unfold winner?
  rw [← List.head?_filterMap, ← List.head?_filterMap, List.filterMap_filterMap, ← List.head?_map,
    List.map_filterMap]
  congr 2
  funext c
  unfold identity?
  cases verified? judge c with
  | none => rfl
  | some t =>
    simp only [Option.bind_some, Option.map_map]
    rfl

/-- A candidate leaves a challenge or a verified token, which leaves a challenge if it has no
user. -/
theorem challenges_ne_nil (hp : ∀ raw p, judge raw ≠ .panic p) {candidates : List TokenCandidate}
    (h : candidates ≠ []) :
    candidates.filterMap (fault? judge) ++
      (candidates.filterMap (verified? judge)).map (fun _ => Challenge.noUsername) ≠ [] := by
  -- the first candidate is enough: it is on one of the two lists
  obtain ⟨c, rest, rfl⟩ := List.exists_cons_of_ne_nil h
  cases hfault : fault? judge c with
  | some challenge => simp [hfault]
  | none =>
    obtain ⟨token, htoken⟩ := verified?_isSome_of_fault? hp hfault
    simp [htoken]

/-- The first challenge that is sent: that of the first candidate at fault, else, if there is a
candidate at all, that of claims without a name. -/
theorem headD_challenges (hp : ∀ raw p, judge raw ≠ .panic p) {candidates : List TokenCandidate}
    (h : candidates ≠ []) :
    (candidates.filterMap (fault? judge) ++
        (candidates.filterMap (verified? judge)).map fun _ => Challenge.noUsername).headD .noToken =
      (candidates.findSome? (fault? judge)).getD .noUsername := by
  have hsome := challenges_ne_nil hp h
  revert hsome
  rw [← List.head?_filterMap]
  cases candidates.filterMap (fault? judge) with
  | cons challenge rest => exact fun _ => rfl
  | nil =>
    -- nothing speaks against any candidate, so some candidate is verified
    cases candidates.filterMap (verified? judge) with
    | nil => exact fun hsome => absurd rfl hsome
    | cons token rest => exact fun _ => rfl

end Judged

section Due

variable (e : Engine) {values : String → List String}
  {judge : String → Attempt VerificationError Claims}

theorem token?_eq_none_of_isBlank (source : HeaderSource) {value : String}
    (h : Text.isBlank value = true) : source.token? value = none := by
  have htrim : Text.trimChars value.toList = [] := by
    rw [← Text.toList_trim, String.toList_eq_nil_iff]
    exact String.isEmpty_iff.mp h
  unfold HeaderSource.token?
  rw [htrim]
  cases source.scheme with
  | none => rfl
  | some scheme =>
    have hscheme : HeaderSource.afterScheme? scheme [] = none := by
      unfold HeaderSource.afterScheme?
      cases scheme.utf8ByteSize <;> simp [splitAtByte?]
    simp [hscheme]

theorem offers_of_identifies {c : TokenCandidate} {user : User}
    (hc : c ∈ occurrences values e.sources) (h : e.Identifies judge c user) :
    Offers values e.sources := by
  -- a candidate that holds a token has a value that is not blank
  obtain ⟨source, hsource, hmem⟩ := List.mem_flatMap.mp hc
  obtain ⟨value, hvalue, rfl⟩ := List.mem_map.mp hmem
  obtain ⟨token, -, -, htoken, -⟩ := h
  refine ⟨source, hsource, value, hvalue, Bool.eq_false_iff.mpr fun hblank => ?_⟩
  have hnone := token?_eq_none_of_isBlank source hblank
  exact absurd (htoken.symm.trans hnone) nofun

theorem due_iff_of_not_offers (h : ¬ Offers values e.sources) (challenge : Challenge) :
    e.Due values judge challenge ↔ challenge = .noCredentials := by
  constructor
  · intro hdue
    cases hdue with
    | bare => rfl
    | fault hoffers => exact absurd hoffers h
    | nameless hoffers => exact absurd hoffers h
  · rintro rfl
    exact .bare h

theorem due_iff_of_offers (h : Offers values e.sources) (challenge : Challenge) :
    e.Due values judge challenge ↔
      challenge = ((occurrences values e.sources).findSome? (fault? judge)).getD .noUsername := by
  have hfirst := findSome?_eq_some_iff_first (@fault?_eq_some_iff judge)
    (occurrences values e.sources)
  have hnone := findSome?_eq_none_iff_of (@fault?_eq_some_iff judge)
    (occurrences values e.sources)
  constructor
  · intro hdue
    cases hdue with
    | bare hnot => exact absurd h hnot
    | fault _ hfault => rw [(hfirst challenge).mpr hfault, Option.getD_some]
    | nameless _ hall =>
      rw [hnone.mpr hall]
      rfl
  · rintro rfl
    cases hfault : (occurrences values e.sources).findSome? (fault? judge) with
    | none => exact .nameless h (hnone.mp hfault)
    | some challenge => exact .fault h ((hfirst challenge).mp hfault)

end Due

theorem sendChallenge_outcome_ne_some (e : Engine) (r : Request) (c : Challenge) (user : User) :
    (e.sendChallenge r c).outcome ≠ .ok (some user) := by
  unfold sendChallenge
  cases e.realmFor r with
  | ok realm => simp
  | error x => exact nomatch x
  | panic p => simp

section Ruling

variable (e : Engine) {r : Request} {values : String → List String}
  {judge : String → Attempt VerificationError Claims}
  (hr : ∀ looks name, r.headerValues looks name = .ok (values name))
include hr

theorem ruling_of_not_offers (h : ¬ Offers values e.sources) :
    e.ruling judge r = e.sendChallenge r .noCredentials := by
  obtain ⟨looks, present, hrequired, hiff⟩ := hasCredentials_eq hr 0 e.sources
  have habsent : present = false := Bool.eq_false_iff.mpr (mt hiff.mp h)
  unfold ruling hasRequiredParameters
  rw [hrequired, habsent]

variable (hp : ∀ raw p, judge raw ≠ .panic p)
include hp

theorem ruling_of_offers (h : Offers values e.sources) :
    e.ruling judge r =
      match (occurrences values e.sources).findSome? (e.identity? judge) with
      | some user => ⟨(r.attach user).bind fun () => .ok (some user), []⟩
      | none => e.sendChallenge r
          (((occurrences values e.sources).findSome? (fault? judge)).getD .noUsername) := by
  obtain ⟨looks, present, hrequired, hiff⟩ := hasCredentials_eq hr 0 e.sources
  have hcandidates : e.candidates r looks = .ok (occurrences values e.sources) :=
    candidatesOf_eq hr looks e.sources
  have hnonempty := occurrences_ne_nil h
  unfold ruling hasRequiredParameters
  rw [hrequired, hiff.mpr h]
  dsimp only
  -- both passes over the candidates are searches now, for a user and for a fault
  rw [hcandidates, ← headD_challenges hp hnonempty, ← e.winner?_filterMap_verified?]
  generalize occurrences values e.sources = candidates at hnonempty
  obtain ⟨c, rest, rfl⟩ := List.exists_cons_of_ne_nil hnonempty
  dsimp only
  rw [judged_eq hp]
  dsimp only [settled]
  cases e.winner? ((c :: rest).filterMap (verified? judge)) <;> rfl

/-- The first candidate that says who the user is decides. -/
theorem ruling_of_first {user : User}
    (h : First (e.Identifies judge) (occurrences values e.sources) user) :
    e.ruling judge r = ⟨(r.attach user).bind fun () => .ok (some user), []⟩ := by
  -- the early refusal does not apply, as the candidate holds a token
  have hoffers : Offers values e.sources := by
    obtain ⟨before, c, after, heq, hc, -⟩ := h
    have hmem : c ∈ occurrences values e.sources := by
      rw [heq]
      exact List.mem_append_right before List.mem_cons_self
    exact e.offers_of_identifies hmem hc
  rw [e.ruling_of_offers hr hp hoffers,
    (findSome?_eq_some_iff_first e.identity?_eq_some_iff _ user).mpr h]

/-- If no candidate says who the user is, the challenge that is due is sent. -/
theorem ruling_of_none
    (h : ∀ c ∈ occurrences values e.sources, ∀ user, ¬ e.Identifies judge c user) :
    ∃ challenge, (∀ other, e.Due values judge other ↔ other = challenge) ∧
      e.ruling judge r = e.sendChallenge r challenge := by
  by_cases hoffers : Offers values e.sources
  · refine ⟨_, e.due_iff_of_offers hoffers, ?_⟩
    rw [e.ruling_of_offers hr hp hoffers,
      (findSome?_eq_none_iff_of e.identity?_eq_some_iff _).mpr h]
  · exact ⟨_, e.due_iff_of_not_offers hoffers, e.ruling_of_not_offers hr hoffers⟩

/-- A user is attached exactly if the first candidate that says who the user is says so. -/
theorem ruling_outcome_eq_some_iff (user : User) :
    (e.ruling judge r).outcome = .ok (some user) ↔
      r.attach user = .ok () ∧ First (e.Identifies judge) (occurrences values e.sources) user := by
  have hfirst := findSome?_eq_some_iff_first (@identity?_eq_some_iff judge e)
    (occurrences values e.sources)
  have hnone := findSome?_eq_none_iff_of (@identity?_eq_some_iff judge e)
    (occurrences values e.sources)
  cases hfound : (occurrences values e.sources).findSome? (e.identity? judge) with
  | none =>
    obtain ⟨challenge, -, hruling⟩ := e.ruling_of_none hr hp (hnone.mp hfound)
    rw [hruling, ← hfirst, hfound]
    simp [sendChallenge_outcome_ne_some]
  | some found =>
    rw [e.ruling_of_first hr hp ((hfirst found).mp hfound), ← hfirst, hfound]
    refine (Attempt.bind_eq_ok_iff _ _ _).trans ?_
    constructor
    · rintro ⟨⟨⟩, hattach, hsame⟩
      cases hsame
      exact ⟨hattach, rfl⟩
    · rintro ⟨hattach, hsame⟩
      cases hsame
      exact ⟨(), hattach, rfl⟩

end Ruling

theorem finish_outcome_eq_some_iff (e : Engine) (answer : Answer (Attempt String (Option User)))
    (user : User) :
    (e.finish answer).outcome = .ok (some user) ↔ answer.outcome = .ok (some user) := by
  obtain ⟨outcome, actions⟩ := answer
  unfold finish
  cases e.trapErrors <;> cases outcome <;> simp

/-- The user of a request is that of the first of its candidates that says who the user is, and the
challenge of a request without a user is the one that is due. A request that offers anything has
candidates, and the failures of candidates leave a challenge. -/
theorem authenticate_decides (e : Engine) {r : Request} {v : Verifier}
    {values : String → List String}
    {answer : Surroundings → String → Attempt VerificationError Claims}
    (hr : ∀ looks name, r.headerValues looks name = .ok (values name)) (hv : v.IsFunction answer)
    (w : Surroundings) (s : ProcessState) (hp : ∀ raw p, answer w raw ≠ .panic p) :
    let reply := (e.authenticate r v w s).1.1
    let candidates := occurrences values e.sources
    (∀ user, reply.outcome = .ok (some user) ↔
      r.attach user = .ok () ∧ First (e.Identifies (answer w)) candidates user) ∧
    ((∃ c ∈ candidates, ∃ user, e.Identifies (answer w) c user) →
      ∃ user, First (e.Identifies (answer w)) candidates user ∧
        reply = e.finish ⟨(r.attach user).bind fun () => .ok (some user), []⟩) ∧
    ((∀ c ∈ candidates, ∀ user, ¬ e.Identifies (answer w) c user) →
      ∃ challenge, (∀ other, e.Due values (answer w) other ↔ other = challenge) ∧
        (∀ realm, e.realmFor r = .ok realm →
          reply = ⟨.ok none, [.setStatus challenge.status,
            .addHeader "WWW-Authenticate" (challenge.header realm)]⟩) ∧
        ∀ p, e.realmFor r = .panic p → reply = e.finish ⟨.panic p, []⟩) ∧
    (∀ looks, e.hasRequiredParameters r = .ok (true, looks) →
      e.candidates r looks = .ok candidates ∧ candidates ≠ [] ∧
        ∃ tokens challenges, (verifyAll v candidates w s).1.1 = .ok (tokens, challenges) ∧
          challenges ++ tokens.map (fun _ => Challenge.noUsername) ≠ []) := by
  intro reply candidates
  have hreply : reply = e.finish (e.ruling (answer w) r) := (e.authenticate_eq_ruling r hv w s).1
  refine ⟨fun user => ?_, fun h => ?_, fun h => ?_, fun looks hrequired => ?_⟩
  · rw [hreply, finish_outcome_eq_some_iff]
    exact e.ruling_outcome_eq_some_iff hr hp user
  · obtain ⟨user, hfirst⟩ := exists_first_of_exists e.identity?_eq_some_iff _ h
    refine ⟨user, hfirst, ?_⟩
    rw [hreply, e.ruling_of_first hr hp hfirst]
  · obtain ⟨challenge, hdue, hruling⟩ := e.ruling_of_none hr hp h
    refine ⟨challenge, hdue, fun realm hrealm => ?_, fun p hrealm => ?_⟩
    · rw [hreply, hruling, sendChallenge, hrealm]
      exact e.finish_of_ok rfl
    · rw [hreply, hruling, sendChallenge, hrealm]
  · obtain ⟨_, present, hfound, hiff⟩ := hasCredentials_eq hr 0 e.sources
    have hpresent : present = true := by
      rw [hasRequiredParameters, hfound] at hrequired
      cases hrequired
      rfl
    have hnonempty := occurrences_ne_nil (hiff.mp hpresent)
    refine ⟨candidatesOf_eq hr looks e.sources, hnonempty, _, _, ?_, challenges_ne_nil hp hnonempty⟩
    rw [(verifyAll_eq_judged hv candidates w s).1, judged_eq hp]

/-- A request with two tokens in one header. -/
def twoTokens : Request where
  headerValues _ name :=
    .ok (if Text.equalsIgnoringCase "authorization" name then ["Bearer stale", "Bearer fresh"]
      else [])
  path := "/"
  address := .ok "http://app/"
  attach _ := .ok ()

/-- Claims that name Ann within a profile and say something else as the subject. -/
def profile : Claims :=
  ⟨[("profile", .object [("name", .string "ann")]), ("sub", .string "u-7")]⟩

/-- A judge for whom one token holds Ann's claims, and every other is of no worth. -/
def profileOnly (raw : String) : Attempt VerificationError Claims :=
  if raw = "fresh" then .ok profile else .error (.signature "stale")

/-- An engine that looks for the name of a user in a profile. -/
def byProfile : Engine := { standard with usernameClaims := [⟨["profile", "name"]⟩] }

theorem isUsername_profile : byProfile.IsUsername profile "ann" := by
  have hname : ClaimPath.Leads ["name"] [("name", .string "ann")] (.string "ann") :=
    .last (by decide)
  have hfound : ClaimPath.find? ⟨["profile", "name"]⟩ profile = some (.string "ann") := by
    rw [ClaimPath.find?_eq_some_iff]
    exact .within (by decide) hname
  exact Or.inl ⟨[], ⟨["profile", "name"]⟩, [], rfl, ⟨hfound, by cbv⟩, List.forall_mem_nil _⟩

/-- The second token decides, as the first does not verify, and the profile before the subject. -/
theorem authenticate_decides_twoTokens :
    (byProfile.authenticate twoTokens (.custom "profile only" 0 fun _ => profileOnly) midnight
      {}).1.1.outcome = .ok (some ⟨"ann", "fresh", .authorizationBearer, profile, none⟩) := by
  have hpanic : ∀ raw p, profileOnly raw ≠ .panic p := by
    intro raw p
    unfold profileOnly
    split <;> exact nofun
  have hdecides := authenticate_decides byProfile (r := twoTokens) (fun _ _ => rfl)
    (Verifier.isFunction_custom "profile only" 0 profileOnly) midnight {} hpanic
  have hstale : ∀ user, ¬ byProfile.Identifies profileOnly
      ⟨.authorizationBearer, some "Bearer stale"⟩ user := by
    rintro user ⟨token, claims, name, htoken, hjudge, -⟩
    have hvalue :
        TokenCandidate.token? ⟨.authorizationBearer, some "Bearer stale"⟩ = some "stale" := by
      cbv
    cases hvalue.symm.trans htoken
    cases hjudge
  have hfresh : byProfile.Identifies profileOnly ⟨.authorizationBearer, some "Bearer fresh"⟩
      ⟨"ann", "fresh", .authorizationBearer, profile, none⟩ :=
    ⟨"fresh", _, "ann", by cbv, rfl, isUsername_profile, rfl⟩
  refine (hdecides.1 _).mpr ⟨rfl, [_], _, [], by cbv, hfresh, ?_⟩
  exact List.forall_mem_singleton.mpr hstale

end Engine

end BearerAuth

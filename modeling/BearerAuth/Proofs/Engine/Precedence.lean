import BearerAuth.Proofs.Engine.Decision

namespace BearerAuth

section First

variable {α β : Type} {P : α → β → Prop} {xs : List α} {b : β}

theorem First.ne_nil (h : First P xs b) : xs ≠ [] := by
  obtain ⟨before, x, after, rfl, -⟩ := h
  exact List.append_ne_nil_of_right_ne_nil before (List.cons_ne_nil x after)

theorem First.append (h : First P xs b) (ys : List α) : First P (xs ++ ys) b := by
  obtain ⟨before, x, after, rfl, hx, hbefore⟩ := h
  refine ⟨before, x, after ++ ys, ?_, hx, hbefore⟩
  rw [List.append_assoc, List.cons_append]

/-- What is the first behind items that stand in the relation to nothing is the first. -/
theorem First.append_left (h : First P xs b) {ys : List α} (hys : ∀ y ∈ ys, ∀ other, ¬ P y other) :
    First P (ys ++ xs) b := by
  obtain ⟨before, x, after, rfl, hx, hbefore⟩ := h
  refine ⟨ys ++ before, x, after, (List.append_assoc ys before _).symm, hx, ?_⟩
  intro earlier hmem
  rcases List.mem_append.mp hmem with hmem | hmem
  · exact hys earlier hmem
  · exact hbefore earlier hmem

end First

namespace Engine

/-- A request has credentials, and these are its candidates. -/
def Presents (e : Engine) (r : Request) (candidates : List TokenCandidate) : Prop :=
  ∃ looks, e.hasRequiredParameters r = .ok (true, looks) ∧ e.candidates r looks = .ok candidates

/-- A request whose headers do not change presents the values of its headers, if it offers
anything. -/
theorem presents_occurrences {e : Engine} {r : Request} {values : String → List String}
    (hr : ∀ looks name, r.headerValues looks name = .ok (values name))
    (h : Offers values e.sources) : e.Presents r (occurrences values e.sources) := by
  obtain ⟨looks, present, hrequired, hiff⟩ := hasCredentials_eq hr 0 e.sources
  obtain rfl : present = true := hiff.mpr h
  exact ⟨looks, hrequired, candidatesOf_eq hr looks e.sources⟩

/-- The verification of a candidate panics. -/
def Panics (judge : String → Attempt VerificationError Claims) (c : TokenCandidate) (p : Panic) :
    Prop :=
  ∃ token, c.token? = some token ∧ judge token = .panic p

section Judged

variable {judge : String → Attempt VerificationError Claims} {candidates : List TokenCandidate}

/-- Candidates that do not panic leave what they come to, and the verification goes on behind
them. -/
theorem judged_append (h : ∀ c ∈ candidates, ∀ p, ¬ Panics judge c p)
    (rest : List TokenCandidate) :
    judged judge (candidates ++ rest) =
      (judged judge rest).bind fun (tokens, challenges) =>
        .ok (candidates.filterMap (verified? judge) ++ tokens,
          candidates.filterMap (fault? judge) ++ challenges) := by
  -- the result of what follows is only prolonged, whether it is a pair of lists or a panic
  induction candidates with
  | nil =>
    rw [List.nil_append]
    cases judged judge rest <;> rfl
  | cons c candidates ih =>
    have hhere : ∀ p, ¬ Panics judge c p := h c List.mem_cons_self
    have hrest : ∀ c ∈ candidates, ∀ p, ¬ Panics judge c p :=
      fun c hmem => h c (List.mem_cons_of_mem _ hmem)
    rw [List.cons_append, judged, ih hrest]
    cases htoken : c.token? with
    | none => cases judged judge rest <;> simp [verified?, fault?, htoken, Attempt.bind]
    | some token =>
      cases hjudge : judge token with
      | panic p => exact absurd ⟨token, htoken, hjudge⟩ (hhere p)
      | ok claims =>
        cases judged judge rest <;> simp [verified?, fault?, htoken, hjudge, Attempt.bind]
      | error error =>
        cases judged judge rest <;> simp [verified?, fault?, htoken, hjudge, Attempt.bind]

theorem judged_of_quiet (h : ∀ c ∈ candidates, ∀ p, ¬ Panics judge c p) :
    judged judge candidates =
      .ok (candidates.filterMap (verified? judge), candidates.filterMap (fault? judge)) := by
  have happend := judged_append h []
  rw [List.append_nil] at happend
  rw [happend]
  simp [judged, Attempt.bind]

/-- The first candidate that panics ends the verification. -/
theorem judged_of_panics {p : Panic} (h : First (Panics judge) candidates p) :
    judged judge candidates = .panic p := by
  obtain ⟨before, c, after, rfl, ⟨token, htoken, hjudge⟩, hbefore⟩ := h
  have hhere : judged judge (c :: after) = .panic p := by
    rw [judged, htoken]
    dsimp only
    rw [hjudge]
  rw [judged_append hbefore, hhere]
  rfl

end Judged

section Ruling

variable {e : Engine} {r : Request} {judge : String → Attempt VerificationError Claims}
  {candidates : List TokenCandidate} {user : User}

theorem settled_of_first (h : First (e.Identifies judge) candidates user)
    (challenges : List Challenge) :
    e.settled r (candidates.filterMap (verified? judge)) challenges =
      ⟨(r.attach user).bind fun () => .ok (some user), []⟩ := by
  have hfound : candidates.findSome? (e.identity? judge) = some user :=
    (findSome?_eq_some_iff_first e.identity?_eq_some_iff _ user).mpr h
  -- the search among the verified tokens finds what the search among the candidates does
  rw [← e.winner?_filterMap_verified?] at hfound
  obtain ⟨⟨token, username⟩, hwinner, rfl⟩ := Option.map_eq_some_iff.mp hfound
  unfold settled
  rw [hwinner]

/-- What the engine makes of the verification of candidates. -/
def conclude (e : Engine) (r : Request) :
    Attempt Empty (List VerifiedToken × List Challenge) → Answer (Attempt String (Option User))
  | .ok (tokens, challenges) => e.settled r tokens challenges
  | .panic p => ⟨.panic p, []⟩

theorem ruling_of_presents (h : e.Presents r candidates) (hne : candidates ≠ []) :
    e.ruling judge r = e.conclude r (judged judge candidates) := by
  obtain ⟨looks, hrequired, hcandidates⟩ := h
  obtain ⟨c, rest, rfl⟩ := List.exists_cons_of_ne_nil hne
  unfold ruling
  rw [hrequired]
  dsimp only
  rw [hcandidates]
  dsimp only
  cases judged judge (c :: rest) with
  | ok verdicts => rfl
  | error x => exact nomatch x
  | panic p => rfl

/-- Where no verification panics, the first candidate that says who the user is decides. -/
theorem ruling_of_quiet (h : e.Presents r candidates)
    (hquiet : ∀ c ∈ candidates, ∀ p, ¬ Panics judge c p)
    (hfirst : First (e.Identifies judge) candidates user) :
    e.ruling judge r = ⟨(r.attach user).bind fun () => .ok (some user), []⟩ := by
  rw [ruling_of_presents h hfirst.ne_nil, judged_of_quiet hquiet]
  exact settled_of_first hfirst _

/-- A verification that panics decides, whoever was found before it. -/
theorem ruling_of_panics {p : Panic} (h : e.Presents r candidates)
    (hfirst : First (Panics judge) candidates p) : e.ruling judge r = ⟨.panic p, []⟩ := by
  rw [ruling_of_presents h hfirst.ne_nil, judged_of_panics hfirst]
  rfl

/-- The candidates behind one that says who the user is change nothing, unless one of them
panics. -/
theorem authenticate_of_presents {v : Verifier} {early later : List TokenCandidate}
    (hv : v.IsFunction fun _ => judge) (h : e.Presents r (early ++ later))
    (hquiet : ∀ c ∈ early, ∀ p, ¬ Panics judge c p) (hfirst : First (e.Identifies judge) early user)
    (w : Surroundings) (s : ProcessState) :
    let reply := (e.authenticate r v w s).1.1
    ((∀ c ∈ later, ∀ p, ¬ Panics judge c p) →
        reply = e.finish ⟨(r.attach user).bind fun () => .ok (some user), []⟩) ∧
      ∀ p, First (Panics judge) later p → reply = e.finish ⟨.panic p, []⟩ := by
  intro reply
  have hreply : reply = e.finish (e.ruling judge r) := (e.authenticate_eq_ruling r hv w s).1
  constructor
  · intro hlater
    have hall : ∀ c ∈ early ++ later, ∀ p, ¬ Panics judge c p := by
      intro c hmem
      rcases List.mem_append.mp hmem with hmem | hmem
      · exact hquiet c hmem
      · exact hlater c hmem
    rw [hreply, ruling_of_quiet h hall (hfirst.append later)]
  · intro p hp
    rw [hreply, ruling_of_panics h (hp.append_left hquiet)]

end Ruling

/-- Two requests whose candidates agree up to one that says who the user is get the same user, and
nothing is done to their responses, whatever the later candidates hold, as long as the verification
of none of them panics. One that does panics for the whole request. -/
theorem authenticate_agrees (e : Engine) {r r' : Request} {v v' : Verifier}
    {judge : String → Attempt VerificationError Claims} (hv : v.IsFunction fun _ => judge)
    (hv' : v'.IsFunction fun _ => judge) {shared later later' : List TokenCandidate}
    {winner : TokenCandidate} (hr : e.Presents r (shared ++ winner :: later))
    (hr' : e.Presents r' (shared ++ winner :: later'))
    (hquiet : ∀ c ∈ shared ++ [winner], ∀ p, ¬ Panics judge c p)
    (hwinner : ∃ user, e.Identifies judge winner user) (w w' : Surroundings)
    (s s' : ProcessState) :
    let reply := (e.authenticate r v w s).1.1
    let reply' := (e.authenticate r' v' w' s').1.1
    ∃ user, First (e.Identifies judge) (shared ++ [winner]) user ∧
      ((∀ c ∈ later ++ later', ∀ p, ¬ Panics judge c p) →
        reply = e.finish ⟨(r.attach user).bind fun () => .ok (some user), []⟩ ∧
          reply' = e.finish ⟨(r'.attach user).bind fun () => .ok (some user), []⟩ ∧
          (r.attach user = .ok () → r'.attach user = .ok () →
            reply = ⟨.ok (some user), []⟩ ∧ reply' = ⟨.ok (some user), []⟩)) ∧
      (∀ p, First (Panics judge) later p → reply = e.finish ⟨.panic p, []⟩) ∧
      ∀ p, First (Panics judge) later' p → reply' = e.finish ⟨.panic p, []⟩ := by
  intro reply reply'
  -- the winning candidate counts as one of the shared ones, though one before it may decide
  rw [List.append_cons] at hr hr'
  have hexists : ∃ c ∈ shared ++ [winner], ∃ user, e.Identifies judge c user :=
    ⟨winner, List.mem_append_right shared List.mem_cons_self, hwinner⟩
  obtain ⟨user, hfirst⟩ := exists_first_of_exists e.identity?_eq_some_iff _ hexists
  obtain ⟨hreply, hpanics⟩ := authenticate_of_presents hv hr hquiet hfirst w s
  obtain ⟨hreply', hpanics'⟩ := authenticate_of_presents hv' hr' hquiet hfirst w' s'
  refine ⟨user, hfirst, ?_, hpanics, hpanics'⟩
  intro hlater
  have hadmitted : reply = e.finish ⟨(r.attach user).bind fun () => .ok (some user), []⟩ :=
    hreply fun c hmem => hlater c (List.mem_append_left later' hmem)
  have hadmitted' : reply' = e.finish ⟨(r'.attach user).bind fun () => .ok (some user), []⟩ :=
    hreply' fun c hmem => hlater c (List.mem_append_right later hmem)
  refine ⟨hadmitted, hadmitted', ?_⟩
  intro hattach hattach'
  rw [hadmitted, hadmitted', hattach, hattach']
  exact ⟨e.finish_of_ok rfl, e.finish_of_ok rfl⟩

/-- A request with some values of the one header. -/
def bearing (values : List String) : Request where
  headerValues _ name :=
    .ok (if Text.equalsIgnoringCase "authorization" name then values else [])
  path := "/"
  address := .ok "http://app/"
  attach _ := .ok ()

def bearer (value : String) : TokenCandidate := ⟨.authorizationBearer, some value⟩

theorem presents_bearing (rest : List String) :
    standard.Presents (bearing ("Bearer fresh" :: rest)) (("Bearer fresh" :: rest).map bearer) := by
  let values (name : String) : List String :=
    if Text.equalsIgnoringCase "authorization" name then "Bearer fresh" :: rest else []
  have hvalues : values "Authorization" = "Bearer fresh" :: rest := if_pos (by decide)
  have hoffers : Offers values standard.sources := by
    refine ⟨.authorizationBearer, List.mem_cons_self, "Bearer fresh", ?_, by cbv⟩
    change _ ∈ values "Authorization"
    rw [hvalues]
    exact List.mem_cons_self
  have hoccurrences : occurrences values standard.sources =
      ("Bearer fresh" :: rest).map bearer := by
    change (values "Authorization").map _ ++ [] = _
    rw [hvalues, List.append_nil]
    rfl
  rw [← hoccurrences]
  exact presents_occurrences (fun _ _ => rfl) hoffers

/-- A judge for whom one token is Ann's, and every other is of no worth. -/
def freshOnly (raw : String) : Attempt VerificationError Claims :=
  if raw = "fresh" then .ok ⟨[("sub", .string "ann")]⟩ else .error (.signature "stale")

/-- A judge for whom one token is Ann's and who panics over another. -/
def skittish (raw : String) : Attempt VerificationError Claims :=
  if raw = "boom" then .panic (.text "boom") else freshOnly raw

/-- The user that the one token names. -/
def ann : User := ⟨"ann", "fresh", .authorizationBearer, ⟨[("sub", .string "ann")]⟩, none⟩

theorem token?_fresh : (bearer "Bearer fresh").token? = some "fresh" := by
  cbv

theorem identifies_fresh : standard.Identifies skittish (bearer "Bearer fresh") ann :=
  ⟨"fresh", _, "ann", token?_fresh, rfl, .inr ⟨List.forall_mem_nil _, rfl, by cbv⟩, rfl⟩

theorem first_fresh : First (standard.Identifies skittish) [bearer "Bearer fresh"] ann :=
  ⟨[], _, [], rfl, identifies_fresh, List.forall_mem_nil _⟩

theorem quiet_fresh : ∀ c ∈ [bearer "Bearer fresh"], ∀ p, ¬ Panics skittish c p := by
  rintro c hmem p ⟨token, htoken, hjudge⟩
  obtain rfl := List.mem_singleton.mp hmem
  cases token?_fresh.symm.trans htoken
  cases hjudge

/-- A later token that is of no worth changes nothing. -/
theorem authenticate_agrees_fresh :
    let verifier : Verifier := .custom "skittish" 0 fun _ => skittish
    (standard.authenticate (bearing ["Bearer fresh", "Bearer stale"]) verifier midnight {}).1.1 =
        ⟨.ok (some ann), []⟩ ∧
      (standard.authenticate (bearing ["Bearer fresh"]) verifier midnight {}).1.1 =
        ⟨.ok (some ann), []⟩ := by
  intro verifier
  have hverifier : verifier.IsFunction fun _ => skittish :=
    Verifier.isFunction_custom "skittish" 0 skittish
  have hmore : standard.Presents (bearing ["Bearer fresh", "Bearer stale"])
      ([] ++ bearer "Bearer fresh" :: [bearer "Bearer stale"]) :=
    presents_bearing ["Bearer stale"]
  have hone : standard.Presents (bearing ["Bearer fresh"]) ([] ++ bearer "Bearer fresh" :: []) :=
    presents_bearing []
  have hstale : ∀ c ∈ [bearer "Bearer stale"] ++ [], ∀ p, ¬ Panics skittish c p := by
    rintro c hmem p ⟨token, htoken, hjudge⟩
    obtain rfl := List.mem_singleton.mp hmem
    have hvalue : (bearer "Bearer stale").token? = some "stale" := by
      cbv
    cases hvalue.symm.trans htoken
    cases hjudge
  obtain ⟨user, hfirst, hagree, -⟩ := authenticate_agrees standard hverifier hverifier hmore hone
    quiet_fresh ⟨ann, identifies_fresh⟩ midnight midnight {} {}
  have hsearch := findSome?_eq_some_iff_first (@identity?_eq_some_iff skittish standard)
    [bearer "Bearer fresh"]
  have huser : user = ann :=
    Option.some.inj (((hsearch user).mpr hfirst).symm.trans ((hsearch ann).mpr first_fresh))
  obtain ⟨-, -, hreplies⟩ := hagree hstale
  rw [huser] at hreplies
  exact hreplies rfl rfl

/-- Of two requests that begin with the same good token, the one that goes on with a token over
which the verifier panics is answered as by a broken server, the other is Ann's. -/
theorem authenticate_disagrees :
    let verifier : Verifier := .custom "skittish" 0 fun _ => skittish
    standard.Presents (bearing ["Bearer fresh", "Bearer boom"])
        [bearer "Bearer fresh", bearer "Bearer boom"] ∧
      standard.Presents (bearing ["Bearer fresh"]) [bearer "Bearer fresh"] ∧
      standard.Identifies skittish (bearer "Bearer fresh") ann ∧
      (∀ c ∈ [bearer "Bearer fresh"], ∀ p, ¬ Panics skittish c p) ∧
      (standard.authenticate (bearing ["Bearer fresh", "Bearer boom"]) verifier midnight {}).1.1 =
        ⟨.ok none, [.sendError 500 "Unexpected error during JWT authentication"]⟩ ∧
      (standard.authenticate (bearing ["Bearer fresh"]) verifier midnight {}).1.1 =
        ⟨.ok (some ann), []⟩ := by
  intro verifier
  have hverifier : verifier.IsFunction fun _ => skittish :=
    Verifier.isFunction_custom "skittish" 0 skittish
  have hboom : First (Panics skittish) [bearer "Bearer boom"] (.text "boom") :=
    ⟨[], _, [], rfl, ⟨"boom", by cbv, rfl⟩, List.forall_mem_nil _⟩
  refine ⟨presents_bearing _, presents_bearing [], identifies_fresh, quiet_fresh, ?_, ?_⟩
  · have hreply := authenticate_of_presents hverifier (presents_bearing ["Bearer boom"])
      quiet_fresh first_fresh midnight {}
    exact hreply.2 (.text "boom") hboom
  · have hreply := authenticate_of_presents hverifier (presents_bearing []) quiet_fresh
      first_fresh midnight {}
    exact hreply.1 (List.forall_mem_nil _)

end Engine

end BearerAuth

import BearerAuth.Proofs.Filter.Freezing

/-! The course of a filter from its start. Whatever is assigned, configured and asked, the first
attributes that are frozen say once and for all which paths are excluded and which engine is used,
and the first that hold a verifier say which verifier; a request that comes before that fails without
harm. -/

namespace BearerAuth

/-- One verifier is what another becomes by the authentication of some requests in turn. -/
inductive Engine.Learns (e : Engine) :
    List (Surroundings × Request) → Verifier → Verifier → Prop where
  | nothing (v : Verifier) : e.Learns [] v v
  | request {asked : List (Surroundings × Request)} {v v' : Verifier} (h : e.Learns asked v v')
      (w : Surroundings) (r : Request) (s : ProcessState) :
      e.Learns (asked ++ [(w, r)]) v (e.authenticate r v' w s).1.2

theorem Engine.Learns.eq_of_nil {e : Engine} {asked : List (Surroundings × Request)}
    {v v' : Verifier} (h : e.Learns asked v v') (hnone : asked = []) : v' = v := by
  cases h with
  | nothing => rfl
  | request h w r s => exact absurd hnone (List.append_ne_nil_of_right_ne_nil _ (List.cons_ne_nil _ _))

/-- A verifier that is a function of the token stays that function, whatever it learns. -/
theorem Engine.Learns.isFunction {e : Engine} {asked : List (Surroundings × Request)}
    {v v' : Verifier} {answer : Surroundings → String → Attempt VerificationError Claims}
    (h : e.Learns asked v v') (hfunction : v.IsFunction answer) : v'.IsFunction answer := by
  induction h with
  | nothing => exact hfunction
  | request _ w r s ih => exact (e.authenticate_eq_ruling r (ih hfunction) w s).2

namespace Filter

/-- Whether an outcome is that of an engine: not of the exclusions, nor for want of something that is
configured. -/
def ofEngine : Attempt FilterError FilterOutcome → Bool
  | .ok .excluded => false
  | .error (.configuration _) => false
  | _ => true

@[simp]
theorem ofEngine_outcomeOf (answer : Answer (Attempt String (Option User))) :
    ofEngine (outcomeOf answer).outcome = true := by
  obtain ⟨outcome, actions⟩ := answer
  cases outcome with
  | ok user => cases user <;> rfl
  | error text => rfl
  | panic p => rfl

/-- An engine has no answer but its own. -/
theorem outcomeOf_ne {outcome : Attempt FilterError FilterOutcome} (h : ofEngine outcome = false)
    (answer : Answer (Attempt String (Option User))) : (outcomeOf answer).outcome ≠ outcome := by
  intro heq
  have hengine := ofEngine_outcomeOf answer
  rw [heq, h] at hengine
  exact nomatch hengine

/-- The attributes from which a step freezes the slots that are open; an assignment freezes none. -/
def found? (f : Filter) (w : Surroundings) (s : ProcessState) : Step → Option Attributes
  | .assign _ => none
  | .configure factory p => some (f.attributes.configure factory p w s).1.2
  | .request _ => some f.attributes

/-- The request of a step, if it is one that an engine answers. -/
def asked? (f : Filter) (w : Surroundings) (s : ProcessState) :
    Step → Option (Surroundings × Request)
  | .assign _ => none
  | .configure _ _ => none
  | .request r => if ofEngine (f.handle r w s).1.1.outcome then some (w, r) else none

/-- What the steps of a run come upon, in turn. -/
def gather {α : Type} (item? : Filter → Surroundings → ProcessState → Step → Option α) :
    Filter → List (Surroundings × Step) → ProcessState → List α
  | _, [], _ => []
  | f, (w, step) :: rest, s =>
    (item? f w s step).toList ++ gather item? (f.perform step w s).1.2 rest (f.perform step w s).2

/-- The attributes that a run finds each time that it freezes slots. -/
def findings : Filter → List (Surroundings × Step) → ProcessState → List Attributes :=
  gather found?

/-- The requests of a run that an engine answers. -/
def askings : Filter → List (Surroundings × Step) → ProcessState → List (Surroundings × Request) :=
  gather asked?

/-- The exclusions that the first of some attributes hold, which may be none at all. -/
def firstExclusions (found : List Attributes) : List PathExclusion :=
  ((found.head?.bind fun first => first.exclusions).map Shared.value).getD []

/-- The engine that the first of some attributes hold, or else a given one. -/
def firstEngine (fallback : Shared Engine) (found : List Attributes) : Shared Engine :=
  (found.head?.bind fun first => first.engine).getD fallback

/-- The verifier of the first attributes that hold one. -/
def firstVerifier? (found : List Attributes) : Option (Shared Verifier) :=
  found.findSome? fun attributes => attributes.verifier

theorem firstExclusions_append {found : List Attributes} (h : found ≠ [])
    (later : List Attributes) : firstExclusions (found ++ later) = firstExclusions found := by
  unfold firstExclusions
  rw [List.head?_append_of_ne_nil found h]

theorem firstEngine_append {found : List Attributes} (h : found ≠ []) (fallback : Shared Engine)
    (later : List Attributes) :
    firstEngine fallback (found ++ later) = firstEngine fallback found := by
  unfold firstEngine
  rw [List.head?_append_of_ne_nil found h]

theorem firstVerifier?_append_singleton (found : List Attributes) (attributes : Attributes) :
    firstVerifier? (found ++ [attributes]) = (firstVerifier? found).or attributes.verifier := by
  unfold firstVerifier?
  rw [List.findSome?_append, List.findSome?_singleton]

theorem firstVerifier?_eq_none_iff (found : List Attributes) :
    firstVerifier? found = none ↔ ∀ attributes ∈ found, attributes.verifier = none :=
  List.findSome?_eq_none_iff

/-- What is frozen goes back to the attributes that were found: exclusions and engine to the first,
the verifier, but for what it learned of the requests since, to the first that hold one. -/
structure Remembers (fallback : Shared Engine) (found : List Attributes)
    (asked : List (Surroundings × Request)) (frozen : FrozenConfiguration) : Prop where
  fresh : found = [] → frozen.exclusions = none ∧ frozen.engine = none
  exclusions : found ≠ [] → frozen.exclusions.map Shared.value = some (firstExclusions found)
  engine : found ≠ [] → frozen.engine = some (firstEngine fallback found)
  unverified : firstVerifier? found = none → frozen.verifier = none ∧ asked = []
  verified (v : Shared Verifier) : firstVerifier? found = some v →
    ∃ learned, frozen.verifier = some ⟨v.identity, learned⟩ ∧
      (firstEngine fallback found).value.Learns asked v.value learned

variable {fallback : Shared Engine} {found : List Attributes}
  {asked : List (Surroundings × Request)}

theorem remembers_of_fresh (fallback : Shared Engine) : Remembers fallback [] [] {} where
  fresh := fun _ => ⟨rfl, rfl⟩
  exclusions := fun h => absurd rfl h
  engine := fun h => absurd rfl h
  unverified := fun _ => ⟨rfl, rfl⟩
  verified := fun _ hv => nomatch hv

/-- Freezing adds the attributes that it finds. -/
theorem Remembers.frozenAs {f : Filter} (h : Remembers f.defaultEngine found asked f.frozen)
    (identity : Nat) :
    Remembers f.defaultEngine (found ++ [f.attributes]) asked (f.frozenAs identity) where
  fresh := fun hnone => absurd hnone (List.append_ne_nil_of_right_ne_nil _ (List.cons_ne_nil _ _))
  exclusions := by
    intro _
    unfold Filter.frozenAs
    by_cases hfound : found = []
    · -- the slot is open and takes what these attributes hold
      rw [(h.fresh hfound).1, hfound]
      cases hnew : f.attributes.exclusions <;> simp [firstExclusions, hnew]
    · obtain ⟨exclusions, hfrozen, hvalue⟩ := Option.map_eq_some_iff.mp (h.exclusions hfound)
      rw [hfrozen, firstExclusions_append hfound]
      exact congrArg some hvalue
  engine := by
    intro _
    unfold Filter.frozenAs
    by_cases hfound : found = []
    · rw [(h.fresh hfound).2, hfound]
      rfl
    · rw [h.engine hfound, firstEngine_append hfound]
      rfl
  unverified := by
    intro hnone
    rw [firstVerifier?_append_singleton, Option.or_eq_none_iff] at hnone
    obtain ⟨hopen, hasked⟩ := h.unverified hnone.1
    refine ⟨?_, hasked⟩
    unfold Filter.frozenAs
    rw [hopen, hnone.2]
    rfl
  verified := by
    intro v hv
    rw [firstVerifier?_append_singleton] at hv
    unfold Filter.frozenAs
    cases hbefore : firstVerifier? found with
    | none =>
      -- nothing was asked of a verifier yet, so the one that is found has learned nothing
      obtain ⟨hopen, rfl⟩ := h.unverified hbefore
      rw [hbefore, Option.none_or] at hv
      refine ⟨v.value, ?_, .nothing v.value⟩
      rw [hopen, hv]
      rfl
    | some kept =>
      obtain ⟨learned, hverifier, hlearned⟩ := h.verified kept hbefore
      rw [hbefore, Option.some_or, Option.some.injEq] at hv
      subst hv
      have hfound : found ≠ [] := by
        intro hnone
        rw [hnone] at hbefore
        exact nomatch hbefore
      refine ⟨learned, ?_, ?_⟩
      · rw [hverifier]
        rfl
      · rw [firstEngine_append hfound]
        exact hlearned

/-- How a request is answered when the slots were frozen from some attributes: by their exclusions,
for want of a verifier, or by their engine with what their verifier became. -/
inductive Answered (fallback : Shared Engine) (found : List Attributes)
    (asked : List (Surroundings × Request)) (r : Request) (w : Surroundings) (s : ProcessState) :
    Answer (Attempt FilterError FilterOutcome) → Prop where
  | excluded (hpath : isExcludedPath r.path (firstExclusions found) = true) :
      Answered fallback found asked r w s ⟨.ok .excluded, []⟩
  | unverified (hpath : isExcludedPath r.path (firstExclusions found) = false)
      (hnone : firstVerifier? found = none) :
      Answered fallback found asked r w s ⟨.error (.configuration .missingVerifier), []⟩
  | authenticated (hpath : isExcludedPath r.path (firstExclusions found) = false)
      {v : Shared Verifier} (hsome : firstVerifier? found = some v) {learned : Verifier}
      {s' : ProcessState} (hlearned : (firstEngine fallback found).value.Learns asked v.value learned)
      (hreports : s.OnlyReports s') :
      Answered fallback found asked r w s
        (outcomeOf ((firstEngine fallback found).value.authenticate r learned w s').1.1)

namespace Answered

variable {r : Request} {w : Surroundings} {s : ProcessState}
  {answer : Answer (Attempt FilterError FilterOutcome)}

theorem outcome_eq_excluded_iff (h : Answered fallback found asked r w s answer) :
    answer.outcome = .ok .excluded ↔ isExcludedPath r.path (firstExclusions found) = true := by
  cases h with
  | excluded hpath => exact iff_of_true rfl hpath
  | unverified hpath hnone => exact iff_of_false nofun (ne_true_of_eq_false hpath)
  | authenticated hpath =>
    exact iff_of_false (outcomeOf_ne rfl _) (ne_true_of_eq_false hpath)

theorem outcome_eq_missingVerifier_iff (h : Answered fallback found asked r w s answer) :
    answer.outcome = .error (.configuration .missingVerifier) ↔
      isExcludedPath r.path (firstExclusions found) = false ∧
        ∀ attributes ∈ found, attributes.verifier = none := by
  rw [← firstVerifier?_eq_none_iff]
  cases h with
  | excluded hpath => exact iff_of_false nofun fun h => ne_true_of_eq_false h.1 hpath
  | unverified hpath hnone => exact iff_of_true rfl ⟨hpath, hnone⟩
  | authenticated hpath hsome =>
    exact iff_of_false (outcomeOf_ne rfl _) fun h => Option.some_ne_none _ (hsome.symm.trans h.2)

theorem outcome_ne_missingEngine (h : Answered fallback found asked r w s answer) :
    answer.outcome ≠ .error (.configuration .missingEngine) := by
  cases h with
  | excluded => exact nofun
  | unverified => exact nofun
  | authenticated => exact outcomeOf_ne rfl _

/-- Without an engine nothing is done to the response. -/
theorem actions_eq_nil (h : Answered fallback found asked r w s answer)
    (hengine : ofEngine answer.outcome = false) : answer.actions = [] := by
  cases h with
  | excluded => rfl
  | unverified => rfl
  | authenticated => exact absurd rfl (outcomeOf_ne hengine _)

theorem exists_learned (h : Answered fallback found asked r w s answer)
    (hpath : isExcludedPath r.path (firstExclusions found) = false) {v : Shared Verifier}
    (hsome : firstVerifier? found = some v) :
    ∃ learned s', (firstEngine fallback found).value.Learns asked v.value learned ∧
      s.OnlyReports s' ∧
      answer = outcomeOf ((firstEngine fallback found).value.authenticate r learned w s').1.1 := by
  cases h with
  | excluded hexcluded => exact absurd hexcluded (ne_true_of_eq_false hpath)
  | unverified _ hnone => exact absurd (hsome.symm.trans hnone) (Option.some_ne_none v)
  | authenticated _ hother hlearned hreports =>
    have hsame := hother.symm.trans hsome
    rw [Option.some.injEq] at hsame
    subst hsame
    exact ⟨_, _, hlearned, hreports, rfl⟩

end Answered

theorem Remembers.excludes_eq {f : Filter} (h : Remembers fallback found asked f.frozen)
    (hfound : found ≠ []) (path : String) :
    f.excludes path = isExcludedPath path (firstExclusions found) := by
  obtain ⟨exclusions, hfrozen, hvalue⟩ := Option.map_eq_some_iff.mp (h.exclusions hfound)
  unfold excludes
  rw [hfrozen, ← hvalue]
  rfl

/-- A verifier that is asked once more has learned of one more request. -/
theorem Remembers.ask {frozen : FrozenConfiguration} (h : Remembers fallback found asked frozen)
    {v : Shared Verifier} {learned : Verifier} (hsome : firstVerifier? found = some v)
    (hlearned : (firstEngine fallback found).value.Learns asked v.value learned)
    (r : Request) (w : Surroundings) (s : ProcessState) :
    let next := ((firstEngine fallback found).value.authenticate r learned w s).1.2
    Remembers fallback found (asked ++ [(w, r)])
      { frozen with verifier := some ⟨v.identity, next⟩ } where
  fresh := h.fresh
  exclusions := h.exclusions
  engine := h.engine
  unverified := fun hnone => absurd (hsome.symm.trans hnone) (Option.some_ne_none v)
  verified := by
    intro v' hv'
    have hsame := hsome.symm.trans hv'
    rw [Option.some.injEq] at hsame
    subst hsame
    exact ⟨_, rfl, hlearned.request w r s⟩

/-- A request finds attributes, is answered by all that were found, and is itself asked of the
verifier if that is how it is answered. -/
theorem Remembers.handle {f : Filter} (h : Remembers f.defaultEngine found asked f.frozen)
    (r : Request) (w : Surroundings) (s : ProcessState) :
    Answered f.defaultEngine (found ++ [f.attributes]) asked r w s (f.handle r w s).1.1 ∧
      Remembers f.defaultEngine (found ++ [f.attributes])
        (asked ++ (f.asked? w s (.request r)).toList) (f.handle r w s).1.2.frozen ∧
      (f.handle r w s).1.2.defaultEngine = f.defaultEngine := by
  obtain ⟨s', hreports, hserve⟩ := f.handle_eq_serve r w s
  let g : Filter := { f with frozen := f.frozenAs s.identities }
  have hg : Remembers g.defaultEngine (found ++ [f.attributes]) asked g.frozen :=
    h.frozenAs s.identities
  have hfound : found ++ [f.attributes] ≠ [] :=
    List.append_ne_nil_of_right_ne_nil _ (List.cons_ne_nil _ _)
  have hengine := hg.engine hfound
  have hexcludes := hg.excludes_eq hfound r.path
  unfold asked?
  dsimp only
  rw [hserve]
  cases hpath : g.excludes r.path with
  | true =>
    obtain ⟨warnings, s'', hexcluded⟩ := serve_of_excluded hpath w s'
    rw [hexcluded]
    refine ⟨.excluded (hexcludes.symm.trans hpath), ?_, rfl⟩
    -- no engine answered, so nothing was asked
    simpa [ofEngine] using hg
  | false =>
    have hnot := hexcludes.symm.trans hpath
    cases hverifier : firstVerifier? (found ++ [f.attributes]) with
    | none =>
      have hopen := (hg.unverified hverifier).1
      rw [serve_of_unverified hpath hengine hopen]
      refine ⟨.unverified hnot hverifier, ?_, rfl⟩
      -- nor is anything asked here: the engine has no verifier to go by
      simpa [ofEngine] using hg
    | some v =>
      obtain ⟨learned, hfrozen, hlearned⟩ := hg.verified v hverifier
      rw [serve_of_verified hpath hengine hfrozen, if_pos (ofEngine_outcomeOf _)]
      exact ⟨.authenticated hnot hverifier hlearned hreports, hg.ask hverifier hlearned r w s', rfl⟩

/-- A step adds the attributes and the request that it comes upon. -/
theorem Remembers.perform {f : Filter} (h : Remembers f.defaultEngine found asked f.frozen)
    (step : Step) (w : Surroundings) (s : ProcessState) :
    Remembers f.defaultEngine (found ++ (f.found? w s step).toList)
        (asked ++ (f.asked? w s step).toList) (f.perform step w s).1.2.frozen ∧
      (f.perform step w s).1.2.defaultEngine = f.defaultEngine := by
  cases step with
  | assign attributes =>
    have hnothing : found ++ (f.found? w s (.assign attributes)).toList = found :=
      List.append_nil found
    have hnobody : asked ++ (f.asked? w s (.assign attributes)).toList = asked :=
      List.append_nil asked
    rw [hnothing, hnobody]
    exact ⟨h, rfl⟩
  | configure factory p =>
    -- what is frozen is what the automated part leaves, whether it failed or not
    let g : Filter := { f with attributes := (f.attributes.configure factory p w s).1.2 }
    have hg : Remembers g.defaultEngine found asked g.frozen := h
    obtain ⟨identity, hconfigure⟩ := f.configure_apply factory p w s
    have hafter : (f.perform (.configure factory p) w s).1.2 =
        { g with frozen := g.frozenAs identity } := hconfigure
    have hnobody : asked ++ (f.asked? w s (.configure factory p)).toList = asked :=
      List.append_nil asked
    rw [hafter, hnobody]
    exact ⟨hg.frozenAs identity, rfl⟩
  | request r =>
    obtain ⟨-, hnext, hdefault⟩ := h.handle r w s
    exact ⟨hnext, hdefault⟩

theorem snd_play_cons (f : Filter) (w : Surroundings) (step : Step)
    (rest : List (Surroundings × Step)) (s : ProcessState) :
    (f.play ((w, step) :: rest) s).2 =
      ((f.perform step w s).1.2.play rest (f.perform step w s).2).2 :=
  rfl

/-- After a run a filter remembers all that the run came upon. -/
theorem Remembers.play {f : Filter} (h : Remembers f.defaultEngine found asked f.frozen)
    (steps : List (Surroundings × Step)) (s : ProcessState) :
    Remembers f.defaultEngine (found ++ f.findings steps s) (asked ++ f.askings steps s)
        (f.play steps s).2.1.frozen ∧
      (f.play steps s).2.1.defaultEngine = f.defaultEngine := by
  -- the rest of a run starts from what its first step leaves, and remembers that step already
  induction steps generalizing f s found asked with
  | nil =>
    have hnothing : found ++ f.findings [] s = found := List.append_nil found
    have hnobody : asked ++ f.askings [] s = asked := List.append_nil asked
    rw [hnothing, hnobody]
    exact ⟨h, rfl⟩
  | cons moment rest ih =>
    obtain ⟨w, step⟩ := moment
    obtain ⟨hnext, hdefault⟩ := h.perform step w s
    rw [← hdefault] at hnext
    obtain ⟨hlast, hlastDefault⟩ := ih hnext (f.perform step w s).2
    rw [hdefault, List.append_assoc, List.append_assoc] at hlast
    exact ⟨hlast, hlastDefault.trans hdefault⟩

/-- A request after any run of a fresh filter passes if its path is excluded by the first attributes
that were found, this request's included; else it fails if none of them hold a verifier, and the
filter then still takes the next verifier that is assigned; else it is answered by the engine of the
first attributes and the first verifier. -/
theorem handle_of_history {f : Filter} (hfresh : f.frozen = {})
    (steps : List (Surroundings × Step)) (s : ProcessState) (r : Request) (w : Surroundings) :
    let g := (f.play steps s).2.1
    let t := (f.play steps s).2.2
    let found := f.findings steps s ++ [g.attributes]
    let exclusions := firstExclusions found
    let engine := (firstEngine f.defaultEngine found).value
    let answer := (g.handle r w t).1.1
    (answer.outcome = .ok .excluded ↔ isExcludedPath r.path exclusions = true) ∧
    (answer.outcome = .error (.configuration .missingVerifier) ↔
      isExcludedPath r.path exclusions = false ∧
        ∀ attributes ∈ found, attributes.verifier = none) ∧
    (answer.outcome = .ok .excluded ∨ answer.outcome = .error (.configuration .missingVerifier) →
      answer.actions = []) ∧
    (isExcludedPath r.path exclusions = false → ∀ v, firstVerifier? found = some v →
      (∃ learned t', engine.Learns (f.askings steps s) v.value learned ∧ t.OnlyReports t' ∧
        answer = outcomeOf (engine.authenticate r learned w t').1.1) ∧
      ∀ judge, v.value.IsFunction judge →
        answer = outcomeOf (engine.finish (engine.ruling (judge w) r))) ∧
    answer.outcome ≠ .error (.configuration .missingEngine) ∧
    (answer.outcome = .error (.configuration .missingVerifier) →
      ∀ attributes v, attributes.verifier = some v →
      ∀ r' w' t', isExcludedPath r'.path exclusions = false → ∃ t'', t'.OnlyReports t'' ∧
        ({ (g.handle r w t).1.2 with attributes }.handle r' w' t').1.1 =
          outcomeOf (engine.authenticate r' v.value w' t'').1.1) := by
  intro g t found exclusions engine answer
  -- at the start there is nothing to remember, after the run all that it came upon
  have hstart : Remembers f.defaultEngine [] [] f.frozen := hfresh ▸ remembers_of_fresh _
  obtain ⟨hplay, hdefault⟩ := hstart.play steps s
  rw [List.nil_append, List.nil_append, ← hdefault] at hplay
  obtain ⟨hanswer, hnext, hnextDefault⟩ := hplay.handle r w t
  rw [hdefault] at hanswer
  have hfound : found ≠ [] := List.append_ne_nil_of_right_ne_nil _ (List.cons_ne_nil _ _)
  refine ⟨hanswer.outcome_eq_excluded_iff, hanswer.outcome_eq_missingVerifier_iff, ?_, ?_,
    hanswer.outcome_ne_missingEngine, ?_⟩
  · rintro (houtcome | houtcome)
    · exact hanswer.actions_eq_nil (congrArg ofEngine houtcome)
    · exact hanswer.actions_eq_nil (congrArg ofEngine houtcome)
  · intro hpath v hv
    obtain ⟨learned, t', hlearned, hreports, heq⟩ := hanswer.exists_learned hpath hv
    refine ⟨⟨learned, t', hlearned, hreports, heq⟩, fun judge hfunction => ?_⟩
    -- what the verifier has learned does not change the function that it is
    have hsame := hlearned.isFunction hfunction
    exact heq.trans (congrArg outcomeOf (engine.authenticate_eq_ruling r hsame w t').1)
  · intro houtcome attributes v hv r' w' t' hpath
    -- so far no attributes held a verifier, so the next ones are the first that do
    have hnone : firstVerifier? found = none :=
      (firstVerifier?_eq_none_iff found).mpr (hanswer.outcome_eq_missingVerifier_iff.mp houtcome).2
    have hasked := (hnext.unverified hnone).2
    rw [hasked] at hnext
    -- the assignment leaves what is frozen and the engine to fall back on
    let g' : Filter := { (g.handle r w t).1.2 with attributes }
    have hg' : g'.defaultEngine = f.defaultEngine := hnextDefault.trans hdefault
    have hkept : Remembers g'.defaultEngine found [] g'.frozen := hg' ▸ hdefault ▸ hnext
    obtain ⟨hserved, -, -⟩ := hkept.handle r' w' t'
    have hfirst : firstVerifier? (found ++ [attributes]) = some v := by
      rw [firstVerifier?_append_singleton, hnone, Option.none_or, hv]
    have hpath' : isExcludedPath r'.path (firstExclusions (found ++ [attributes])) = false := by
      rw [firstExclusions_append hfound]
      exact hpath
    obtain ⟨learned, t'', hlearned, hreports, heq⟩ := hserved.exists_learned hpath' hfirst
    refine ⟨t'', hreports, heq.trans ?_⟩
    rw [hg', firstEngine_append hfound, hlearned.eq_of_nil rfl]

/-- A filter that excludes a path and has no verifier yet. -/
def door : Filter where
  attributes := { exclusions := some ⟨1, [⟨"/health"⟩]⟩ }
  defaultEngine := ⟨0, .standard⟩

def doorKey : Shared Verifier := ⟨2, .signed { locator := .direct (.secret [1, 2, 3]) }⟩

/-- What comes too late, but for the verifier. -/
def lateAttributes : Attributes where
  engine := some ⟨7, Engine.standard.withRealm "other"⟩
  verifier := some doorKey
  exclusions := some ⟨8, [⟨"/api"⟩]⟩

def api : Request := .ofFields [] "/api" "http://app/api"

def health : Request := .ofFields [] "/health" "http://app/health"

def opening : List (Surroundings × Step) :=
  [(midnight, .request api), (midnight, .assign lateAttributes)]

/-- The first request fails for want of a verifier, and the next one is answered with the verifier
that was assigned since, but by the exclusions and the engine of the first. -/
theorem handle_of_history_door :
    let g := (door.play opening {}).2.1
    let t := (door.play opening {}).2.2
    (door.handle api midnight {}).1.1.outcome = .error (.configuration .missingVerifier) ∧
      (g.handle health midnight t).1.1.outcome = .ok .excluded ∧
      ∃ judge, doorKey.value.IsFunction judge ∧ (g.handle api midnight t).1.1 =
        outcomeOf (Engine.standard.finish (Engine.standard.ruling (judge midnight) api)) := by
  dsimp only
  have hfunction :=
    Verifier.isFunction_of_direct (v := { locator := .direct (.secret [1, 2, 3]) }) rfl
  obtain ⟨-, hmissing, -⟩ := handle_of_history (f := door) rfl [] {} api midnight
  obtain ⟨hexcluded, -⟩ := handle_of_history (f := door) rfl opening {} health midnight
  obtain ⟨-, -, -, hengine, -⟩ := handle_of_history (f := door) rfl opening {} api midnight
  -- the last thing that was done is the assignment, so its attributes are the last ones found
  have hlast : (door.play opening {}).2.1.attributes = lateAttributes := by
    unfold opening
    rw [snd_play_cons, snd_play_cons]
    rfl
  have hfound : door.findings opening {} ++ [(door.play opening {}).2.1.attributes] =
      [door.attributes, lateAttributes] := by
    rw [hlast]
    rfl
  rw [hfound] at hexcluded hengine
  have hhealth : isExcludedPath "/health" (firstExclusions [door.attributes, lateAttributes]) =
      true := by
    decide
  have hapi : isExcludedPath "/api" (firstExclusions [door.attributes]) = false := by
    decide
  have hnone : ∀ attributes ∈ [door.attributes], attributes.verifier = none :=
    (firstVerifier?_eq_none_iff _).mp rfl
  refine ⟨hmissing.mpr ⟨hapi, hnone⟩, hexcluded.mpr hhealth, _, hfunction, ?_⟩
  exact (hengine hapi doorKey rfl).2 _ hfunction

end Filter

end BearerAuth

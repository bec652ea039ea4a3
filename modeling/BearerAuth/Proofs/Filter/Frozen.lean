import BearerAuth.Proofs.Configuration.Discretion
import BearerAuth.Proofs.Engine.Reply
import BearerAuth.Proofs.Filter.Steps

namespace BearerAuth

namespace Filter

/-- A filter whose slots are frozen: to an engine, to exclusions, and to a verifier of some identity
that is a function of the token. -/
structure FrozenTo (f : Filter) (engine : Shared Engine) (exclusions : Shared (List PathExclusion))
    (identity : Nat) (answer : Surroundings → String → Attempt VerificationError Claims) :
    Prop where
  engine : f.frozen.engine = some engine
  exclusions : f.frozen.exclusions = some exclusions
  verifier : ∃ v, f.frozen.verifier = some ⟨identity, v⟩ ∧ v.IsFunction answer

/-- What comes of a request by an engine, exclusions and a judge of tokens. -/
def reply (engine : Engine) (exclusions : List PathExclusion)
    (judge : String → Attempt VerificationError Claims) (r : Request) :
    Answer (Attempt FilterError FilterOutcome) :=
  if isExcludedPath r.path exclusions then ⟨.ok .excluded, []⟩
  else outcomeOf (engine.finish (engine.ruling judge r))

/-- What a filter does to a request after the comparison of its slots. -/
def serve (f : Filter) (r : Request) : Run (Answer (Attempt FilterError FilterOutcome) × Filter) :=
  if f.excludes r.path then do
    let (_, warnings) ← f.warnings.warnOnce r.path
    return (⟨.ok .excluded, []⟩, { f with warnings })
  else f.authenticate r

theorem handle_of_isFrozen {f : Filter} (h : f.IsFrozen) (r : Request) (w : Surroundings)
    (s : ProcessState) :
    f.handle r w s = f.serve r w { s with events := s.events ++ f.modifications } := by
  unfold handle
  rw [Run.bind_apply, freeze_of_isFrozen h]
  rfl

theorem reportsIn_warnOnce {areas : Area → Prop} (h : areas .exclusion)
    (warnings : ExclusionWarnings) (path : String) :
    (warnings.warnOnce path).ReportsIn areas := by
  refine .bind Run.reportsIn_surroundings fun w => ?_
  rcases warnings.next w.instant path with ⟨_ | _, warnings'⟩
  · exact .pure _
  · exact .bind (.report h) fun _ => .pure _

/-- After the comparison nothing is reported of frozen slots. -/
theorem reportsIn_serve (f : Filter) (r : Request) : (f.serve r).ReportsIn (· ≠ .frozen) := by
  unfold serve
  split
  · exact .bind (reportsIn_warnOnce nofun f.warnings r.path) fun _ => .pure _
  · unfold authenticate
    cases f.frozen.engine with
    | none => exact .pure _
    | some engine =>
      cases f.frozen.verifier with
      | none => exact .pure _
      | some verifier =>
        exact .bind (engine.value.reportsIn_authenticate nofun nofun r verifier.value)
          fun _ => .pure _

/-- A frozen filter that is configured takes the attributes that come of it, and reports what they
modify. -/
theorem configure_of_isFrozen {f : Filter} (h : f.IsFrozen) (factory : Factory) (p : Parameters)
    (w : Surroundings) (s : ProcessState) :
    let configured := f.attributes.configure factory p w s
    let f' := { f with attributes := configured.1.2 }
    ∃ reported, (∀ event ∈ reported, event.area = .filter) ∧
      f.configure factory p w s = (f', { configured.2 with
        events := configured.2.events ++ (reported ++ f'.modifications) }) := by
  dsimp only
  have hsame : ∀ attributes, IsFrozen { f with attributes } := fun _ =>
    ⟨h.exclusions, h.engine, h.verifier⟩
  unfold configure
  rw [Run.bind_apply]
  rcases f.attributes.configure factory p w s with ⟨⟨e | _, attributes⟩, s'⟩
  · let report : Event := {
      level := .error, area := .filter
      message := s!"Automated JWT authentication configuration failed: {e.message}" }
    refine ⟨[report], List.forall_mem_singleton.mpr rfl, ?_⟩
    dsimp only
    rw [Run.bind_apply, Run.bind_apply, freeze_of_isFrozen (hsame attributes)]
    simp only [Run.say, Run.report, List.append_assoc]
    rfl
  · refine ⟨[], List.forall_mem_nil _, ?_⟩
    dsimp only
    rw [Run.bind_apply, freeze_of_isFrozen (hsame attributes)]
    rfl

variable {f : Filter} {engine : Shared Engine} {exclusions : Shared (List PathExclusion)}
  {identity : Nat} {answer : Surroundings → String → Attempt VerificationError Claims}

theorem FrozenTo.isFrozen (h : f.FrozenTo engine exclusions identity answer) : f.IsFrozen := by
  obtain ⟨v, hv, -⟩ := h.verifier
  exact ⟨h.exclusions ▸ rfl, h.engine ▸ rfl, hv ▸ rfl⟩

/-- A request is answered by what is frozen, and changes nothing of it. -/
theorem FrozenTo.handle (h : f.FrozenTo engine exclusions identity answer) (r : Request)
    (w : Surroundings) (s : ProcessState) :
    (f.handle r w s).1.1 = reply engine.value exclusions.value (answer w) r ∧
      (f.handle r w s).1.2.FrozenTo engine exclusions identity answer := by
  obtain ⟨v, hv, hfunction⟩ := h.verifier
  have hexcludes : f.excludes r.path = isExcludedPath r.path exclusions.value := by
    unfold excludes
    rw [h.exclusions]
    rfl
  rw [handle_of_isFrozen h.isFrozen]
  -- the warnings that were just added are no concern of the rest
  generalize { s with events := s.events ++ f.modifications } = s'
  unfold serve reply
  rw [hexcludes]
  split
  · exact ⟨rfl, h.engine, h.exclusions, h.verifier⟩
  · obtain ⟨hruling, hnext⟩ := engine.value.authenticate_eq_ruling r hfunction w s'
    unfold authenticate
    rw [h.engine, hv]
    refine ⟨congrArg outcomeOf hruling, h.engine, h.exclusions, _, rfl, hnext⟩

/-- A step changes nothing of what is frozen, and only a request is answered. -/
theorem FrozenTo.perform (h : f.FrozenTo engine exclusions identity answer) (step : Step)
    (w : Surroundings) (s : ProcessState) :
    (f.perform step w s).1.1 = step.request?.map (reply engine.value exclusions.value (answer w)) ∧
      (f.perform step w s).1.2.FrozenTo engine exclusions identity answer := by
  cases step with
  | assign attributes => exact ⟨rfl, h.engine, h.exclusions, h.verifier⟩
  | configure factory p =>
    obtain ⟨_, -, hconfigure⟩ := configure_of_isFrozen h.isFrozen factory p w s
    refine ⟨rfl, ?_⟩
    change (f.configure factory p w s).1.FrozenTo engine exclusions identity answer
    rw [hconfigure]
    exact ⟨h.engine, h.exclusions, h.verifier⟩
  | request r =>
    obtain ⟨hreply, hnext⟩ := h.handle r w s
    exact ⟨congrArg some hreply, hnext⟩

/-- The answers of a run of a frozen filter are those of its requests alone. -/
theorem FrozenTo.play (h : f.FrozenTo engine exclusions identity answer)
    (steps : List (Surroundings × Step)) (s : ProcessState) :
    (f.play steps s).1 = steps.filterMap (fun moment =>
        moment.2.request?.map (reply engine.value exclusions.value (answer moment.1))) ∧
      (f.play steps s).2.1.FrozenTo engine exclusions identity answer := by
  -- what a step leaves of the process does not matter, as no reply depends on it
  induction steps generalizing f s with
  | nil => exact ⟨rfl, h⟩
  | cons first rest ih =>
    obtain ⟨w, step⟩ := first
    obtain ⟨hreply, hnext⟩ := h.perform step w s
    obtain ⟨hreplies, hlast⟩ := ih hnext (f.perform step w s).2
    refine ⟨?_, hlast⟩
    have hplay : (f.play ((w, step) :: rest) s).1 = (f.perform step w s).1.1.toList ++
        ((f.perform step w s).1.2.play rest (f.perform step w s).2).1 := rfl
    rw [hplay, hreply, hreplies, List.filterMap_cons]
    dsimp only
    cases step.request? <;> rfl

/-- A request adds a warning for each modified slot, and no other. -/
theorem warnings_of_handle {f : Filter} (h : f.IsFrozen) (r : Request) (w : Surroundings)
    (s : ProcessState) :
    ∃ added, (f.handle r w s).2.events = s.events ++ added ∧
      ∀ slot : Slot, slot.warning ∈ added ↔ f.IsModified slot := by
  obtain ⟨others, hothers, hareas⟩ :=
    f.reportsIn_serve r w { s with events := s.events ++ f.modifications }
  refine ⟨f.modifications ++ others, ?_, fun slot => ?_⟩
  · rw [handle_of_isFrozen h, hothers, List.append_assoc]
  · rw [List.mem_append, warning_mem_modifications_iff]
    exact or_iff_left fun hmem => hareas _ hmem rfl

/-- Configuration adds, to what its automated part reports, a warning for each slot that is modified
then, and no other. -/
theorem warnings_of_configure {f : Filter} (h : f.IsFrozen) (factory : Factory) (p : Parameters)
    (w : Surroundings) (s : ProcessState) :
    ∃ added, (f.configure factory p w s).2.events =
        (f.attributes.configure factory p w s).2.events ++ added ∧
      ∀ slot : Slot, slot.warning ∈ added ↔ (f.configure factory p w s).1.IsModified slot := by
  obtain ⟨reported, hareas, hconfigure⟩ := configure_of_isFrozen h factory p w s
  rw [hconfigure]
  refine ⟨_, rfl, fun slot => ?_⟩
  rw [List.mem_append, warning_mem_modifications_iff]
  exact or_iff_right fun hmem => nomatch hareas _ hmem

/-- Once a filter is frozen, changes of what is configured have no effect on the answers to its
requests, whatever the process did meanwhile; what is frozen stays the same; and a request or a
configuration warns of exactly the slots for which something is configured that is not the thing
that is frozen. -/
theorem play_frozen {f : Filter} {engine : Shared Engine}
    {exclusions : Shared (List PathExclusion)} {verifier : Shared Verifier}
    {answer : Surroundings → String → Attempt VerificationError Claims}
    (hengine : f.frozen.engine = some engine) (hexclusions : f.frozen.exclusions = some exclusions)
    (hverifier : f.frozen.verifier = some verifier) (hfunction : verifier.value.IsFunction answer)
    (steps : List (Surroundings × Step)) (s s' : ProcessState) :
    let g := (f.play steps s).2.1
    let t := (f.play steps s).2.2
    (f.play steps s).1 = (f.play (steps.filter fun moment => moment.2.request?.isSome) s').1 ∧
    (g.frozen.engine = some engine ∧ g.frozen.exclusions = some exclusions ∧
      ∃ learned, g.frozen.verifier = some ⟨verifier.identity, learned⟩) ∧
    (∀ r w, ∃ added, (g.handle r w t).2.events = t.events ++ added ∧
      ∀ slot : Slot, slot.warning ∈ added ↔ g.IsModified slot) ∧
    ∀ factory p w,
      (∃ added, (g.configure factory p w t).2.events =
          (g.attributes.configure factory p w t).2.events ++ added ∧
        ∀ slot : Slot, slot.warning ∈ added ↔ (g.configure factory p w t).1.IsModified slot) ∧
      (factory.Discreet → ∃ added, (g.configure factory p w t).2.events = t.events ++ added ∧
        ∀ slot : Slot, slot.warning ∈ added ↔ (g.configure factory p w t).1.IsModified slot) := by
  intro g t
  have hfrozen : f.FrozenTo engine exclusions verifier.identity answer :=
    ⟨hengine, hexclusions, verifier.value, hverifier, hfunction⟩
  -- the run and the one of its requests alone are answered by the same frozen things
  obtain ⟨hanswers, hlast⟩ := hfrozen.play steps s
  obtain ⟨hrequests, -⟩ :=
    hfrozen.play (steps.filter fun moment => moment.2.request?.isSome) s'
  refine ⟨?_, ⟨hlast.engine, hlast.exclusions, ?_⟩, fun r w => ?_, fun factory p w => ⟨?_, ?_⟩⟩
  · rw [hanswers, hrequests, List.filterMap_filter]
    -- a step that is no request has no answer either way
    refine List.filterMap_congr fun moment _ => ?_
    cases moment.2.request? <;> rfl
  · obtain ⟨learned, hlearned, -⟩ := hlast.verifier
    exact ⟨learned, hlearned⟩
  · exact warnings_of_handle hlast.isFrozen r w t
  · exact warnings_of_configure hlast.isFrozen factory p w t
  · intro hdiscreet
    obtain ⟨added, hadded, hwarnings⟩ := warnings_of_configure hlast.isFrozen factory p w t
    obtain ⟨automated, hautomated, hareas⟩ :=
      Attributes.reportsIn_configure hdiscreet g.attributes p w t
    refine ⟨automated ++ added, ?_, fun slot => ?_⟩
    · rw [hadded, hautomated, List.append_assoc]
    · rw [List.mem_append, hwarnings slot]
      exact or_iff_right fun hmem => hareas _ hmem rfl

/-- A filter that is frozen to the engine that it falls back on, no exclusions, and the holder of a
secret. -/
def gate : Filter :=
  let verifier : Shared Verifier := ⟨1, .signed { locator := .direct (.secret [1, 2, 3]) }⟩
  { attributes := { verifier := some verifier }
    frozen := {
      engine := some ⟨0, .standard⟩
      verifier := some verifier
      exclusions := some ⟨2, []⟩ }
    defaultEngine := ⟨0, .standard⟩ }

/-- Another engine and other exclusions are configured between two requests. -/
def tampering : List (Surroundings × Step) :=
  let request := Request.ofFields [("Authorization", "Bearer x")] "/api" "http://app/api"
  let attributes : Attributes := { gate.attributes with
    engine := some ⟨7, Engine.standard.withRealm "other"⟩
    exclusions := some ⟨8, [⟨"/api"⟩]⟩ }
  [(midnight, .request request), (midnight, .assign attributes),
    (midnight, .configure {} fun _ => none), (midnight, .request request)]

/-- The new engine answers nothing, and the next configuration warns of it but not of the
verifier. -/
theorem play_frozen_gate :
    let g := (gate.play tampering {}).2.1
    let t := (gate.play tampering {}).2.2
    (gate.play tampering {}).1 =
        (gate.play (tampering.filter fun moment => moment.2.request?.isSome) {}).1 ∧
      g.frozen.engine = some ⟨0, .standard⟩ ∧
      ∃ added, (g.configure {} (fun _ => none) midnight t).2.events = t.events ++ added ∧
        Slot.engine.warning ∈ added ∧ Slot.verifier.warning ∉ added := by
  intro g t
  have hfunction :=
    Verifier.isFunction_of_direct (v := { locator := .direct (.secret [1, 2, 3]) }) rfl
  obtain ⟨hanswers, ⟨hengine, -, -⟩, -, hconfigure⟩ :=
    play_frozen (f := gate) rfl rfl rfl hfunction tampering {} {}
  obtain ⟨added, hadded, hwarnings⟩ :=
    (hconfigure {} (fun _ => none) midnight).2 Factory.discreet_initial
  have hmodified : (g.configure {} (fun _ => none) midnight t).1.IsModified .engine := by
    decide
  have hkept : ¬ (g.configure {} (fun _ => none) midnight t).1.IsModified .verifier := by
    decide
  exact ⟨hanswers, hengine, added, hadded, (hwarnings .engine).mpr hmodified,
    mt (hwarnings .verifier).mp hkept⟩

end Filter

end BearerAuth

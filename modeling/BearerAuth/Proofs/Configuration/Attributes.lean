import BearerAuth.Configuration.Automated

namespace BearerAuth

/-- The providers that are there from the start are asked in the order in which they are listed. -/
theorem Factory.verifier?_initial (p : Parameters) :
    Factory.verifier? {} p = Provider.firstOf Provider.reportVerifier p Provider.verifiers := by
  have hordered : Provider.ordered Provider.verifiers = Provider.verifiers := by
    unfold Provider.ordered
    apply List.mergeSort_of_pairwise
    simp [Provider.verifiers, Provider.discovery, Provider.loadBalancer, Provider.keys]
  exact congrArg (Provider.firstOf Provider.reportVerifier p) hordered

namespace Attributes

variable {a : Attributes} {p : Parameters} {text : String}

/-- The part for the verifier sets its slot if it may and has something to set it to. -/
theorem configureVerifier_eq (a : Attributes) (factory : Factory) (p : Parameters)
    (replace : Bool) (w : Surroundings) (s : ProcessState) :
    (a.configureVerifier factory p replace w s).1 = { a with
      verifier := if a.verifier.isNone || replace then
        (factory.verifier? p w s).1.or a.verifier else a.verifier } := by
  unfold configureVerifier
  cases a.verifier.isNone || replace with
  | false => rfl
  | true =>
    simp only [if_true, Run.bind_apply]
    cases (factory.verifier? p w s).1 <;> rfl

theorem configureVerifier_apply (a : Attributes) (factory : Factory) (p : Parameters)
    (replace : Bool) (w : Surroundings) (s : ProcessState) :
    ∃ verifier, (a.configureVerifier factory p replace w s).1 = { a with verifier } ∧
      (a.verifier = none → verifier = (factory.verifier? p w s).1) := by
  refine ⟨_, a.configureVerifier_eq factory p replace w s, ?_⟩
  intro hnone
  rw [hnone]
  exact Option.or_none

/-- So does the part for the engine. -/
theorem configureEngine_eq (a : Attributes) (factory : Factory) (p : Parameters)
    (replace : Bool) (w : Surroundings) (s : ProcessState) :
    (a.configureEngine factory p replace w s).1 = { a with
      engine := if a.engine.isNone || replace then
        (factory.engine? p w s).1.or a.engine else a.engine } := by
  unfold configureEngine
  cases a.engine.isNone || replace with
  | false => rfl
  | true =>
    simp only [if_true, Run.bind_apply]
    cases (factory.engine? p w s).1 <;> rfl

theorem configureEngine_apply (a : Attributes) (factory : Factory) (p : Parameters)
    (replace : Bool) (w : Surroundings) (s : ProcessState) :
    ∃ engine, (a.configureEngine factory p replace w s).1 = { a with engine } :=
  ⟨_, a.configureEngine_eq factory p replace w s⟩

/-- The list of exclusions that parameters bring, if it is valid. -/
def validExclusions? (p : Parameters) : Option (List PathExclusion) :=
  (p.string? ParameterName.pathExclusions).bind fun text => (PathExclusion.ofList text).toOption

/-- The part for the exclusions does the same with a valid list, which is new each time. -/
theorem configureExclusions_eq (a : Attributes) (p : Parameters) (replace : Bool)
    (w : Surroundings) (s : ProcessState) :
    (a.configureExclusions p replace w s).1.2 = { a with
      exclusions := if a.exclusions.isNone || replace then
        ((validExclusions? p).map (Shared.mk s.identities)).or a.exclusions
        else a.exclusions } := by
  unfold configureExclusions validExclusions?
  cases a.exclusions.isNone || replace with
  | false => rfl
  | true =>
    cases p.string? ParameterName.pathExclusions with
    | none => rfl
    | some text =>
      simp only [if_true, Option.bind_some]
      cases PathExclusion.ofList text <;> rfl

/-- It fails for an invalid list alone, and only where it would set its slot. -/
theorem configureExclusions_eq_error_iff (a : Attributes) (p : Parameters) (replace : Bool)
    (w : Surroundings) (s : ProcessState) (e : ConfigurationError) :
    (a.configureExclusions p replace w s).1.1 = .error e ↔
      (a.exclusions.isNone || replace) = true ∧
        ∃ text, p.string? ParameterName.pathExclusions = some text ∧
          PathExclusion.ofList text = .error e := by
  unfold configureExclusions
  cases a.exclusions.isNone || replace with
  | false => exact iff_of_false nofun (fun h => nomatch h.1)
  | true =>
    cases p.string? ParameterName.pathExclusions with
    | none => exact iff_of_false nofun (fun ⟨_, _, h, _⟩ => nomatch h)
    | some text =>
      simp only [if_true, Option.some.injEq, exists_eq_left', true_and]
      cases PathExclusion.ofList text with
      | error reason =>
        have hsame {α β : Type} (h : (.error reason : Except ConfigurationError α) = .error e) :
            (.error reason : Except ConfigurationError β) = .error e :=
          congrArg Except.error (Except.error.inj h)
        exact ⟨hsame, hsame⟩
      | ok exclusions => exact iff_of_false nofun nofun

theorem configureExclusions_apply (a : Attributes) (p : Parameters) (replace : Bool)
    (w : Surroundings) (s : ProcessState) :
    ∃ exclusions, (a.configureExclusions p replace w s).1.2 = { a with exclusions } ∧
      ∀ e, (a.configureExclusions p replace w s).1.1 = .error e → exclusions = a.exclusions := by
  refine ⟨_, a.configureExclusions_eq p replace w s, ?_⟩
  intro e herror
  obtain ⟨-, text, htext, hlist⟩ :=
    (a.configureExclusions_eq_error_iff p replace w s e).mp herror
  have hinvalid : validExclusions? p = none := by
    unfold validExclusions?
    rw [htext, Option.bind_some, hlist]
    rfl
  rw [hinvalid]
  exact ite_id _

/-- An open slot for the exclusions takes the list of the parameters, and an invalid list is the only
way to fail. -/
theorem configureExclusions_of_none (h : a.exclusions = none)
    (htext : p.string? ParameterName.pathExclusions = some text) (replace : Bool)
    (w : Surroundings) (s : ProcessState) :
    (a.configureExclusions p replace w s).1.1 = (PathExclusion.ofList text).map (fun _ => ()) ∧
      (a.configureExclusions p replace w s).1.2.exclusions.map Shared.value =
        (PathExclusion.ofList text).toOption := by
  have hopen : (a.exclusions.isNone || replace) = true := by
    rw [h]
    rfl
  unfold configureExclusions
  rw [hopen, htext, if_pos rfl]
  dsimp only
  cases PathExclusion.ofList text with
  | error e => exact ⟨rfl, congrArg (Option.map Shared.value) h⟩
  | ok exclusions => exact ⟨rfl, rfl⟩

/-- Verifier and engine are configured first, and then the exclusions. -/
theorem exists_configureExclusions (a : Attributes) (factory : Factory) (p : Parameters)
    (w : Surroundings) (s : ProcessState) :
    ∃ verifier engine replace s', a.configure factory p w s =
        Attributes.configureExclusions { a with verifier, engine } p replace w s' ∧
      (a.verifier = none → ∃ t, verifier = (factory.verifier? p w t).1) := by
  -- each part starts from the attributes and the process that the one before it leaves
  let replace := (p.boolean ParameterName.allowMultiple false w s).1
  let s₁ := (p.boolean ParameterName.allowMultiple false w s).2
  obtain ⟨verifier, hverifier, hempty⟩ := a.configureVerifier_apply factory p replace w s₁
  let a₁ : Attributes := { a with verifier }
  let s₂ := (a.configureVerifier factory p replace w s₁).2
  obtain ⟨engine, hengine⟩ := a₁.configureEngine_apply factory p replace w s₂
  refine ⟨verifier, engine, replace, (a₁.configureEngine factory p replace w s₂).2, ?_,
    fun hnone => ⟨s₁, hempty hnone⟩⟩
  unfold configure
  rw [Run.bind_apply, Run.bind_apply, hverifier, Run.bind_apply, hengine]

/-- An open slot for the verifier takes what the factory finds. -/
theorem verifier_configure_of_none (h : a.verifier = none) (factory : Factory) (p : Parameters)
    (w : Surroundings) (s : ProcessState) :
    ∃ t, (a.configure factory p w s).1.2.verifier = (factory.verifier? p w t).1 := by
  obtain ⟨verifier, engine, replace, s', hconfigure, hempty⟩ :=
    a.exists_configureExclusions factory p w s
  obtain ⟨t, ht⟩ := hempty h
  refine ⟨t, ?_⟩
  let a₁ : Attributes := { a with verifier, engine }
  obtain ⟨exclusions, hexclusions, -⟩ := a₁.configureExclusions_apply p replace w s'
  rw [hconfigure, hexclusions, ← ht]

/-- A configuration that fails leaves the exclusions as they are. -/
theorem exclusions_configure_of_error {factory : Factory} {w : Surroundings} {s : ProcessState}
    {e : ConfigurationError} (h : (a.configure factory p w s).1.1 = .error e) :
    (a.configure factory p w s).1.2.exclusions = a.exclusions := by
  obtain ⟨verifier, engine, replace, s', hconfigure, -⟩ :=
    a.exists_configureExclusions factory p w s
  let a₁ : Attributes := { a with verifier, engine }
  obtain ⟨exclusions, hexclusions, hkept⟩ := a₁.configureExclusions_apply p replace w s'
  rw [hconfigure] at h ⊢
  rw [hexclusions]
  exact hkept e h

theorem configure_of_exclusions (h : a.exclusions = none)
    (htext : p.string? ParameterName.pathExclusions = some text) (factory : Factory)
    (w : Surroundings) (s : ProcessState) :
    (a.configure factory p w s).1.1 = (PathExclusion.ofList text).map (fun _ => ()) ∧
      (a.configure factory p w s).1.2.exclusions.map Shared.value =
        (PathExclusion.ofList text).toOption := by
  obtain ⟨verifier, engine, replace, s', hconfigure, -⟩ :=
    a.exists_configureExclusions factory p w s
  rw [hconfigure]
  exact configureExclusions_of_none (a := { a with verifier, engine }) h htext replace w s'

end Attributes

end BearerAuth

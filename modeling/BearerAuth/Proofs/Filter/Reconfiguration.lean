import BearerAuth.Proofs.Configuration.Attributes
import BearerAuth.Proofs.Engine.Reply
import BearerAuth.Proofs.Filter.Freezing

namespace BearerAuth.Filter

variable {f : Filter} {factory : Factory} {p : Parameters} {w : Surroundings} {s : ProcessState}
  {exclusions : Shared (List PathExclusion)}

theorem exclusions_frozenAs_of_some (h : f.frozen.exclusions = some exclusions) (identity : Nat) :
    (f.frozenAs identity).exclusions = some exclusions := by
  unfold frozenAs
  rw [h]
  rfl

theorem exclusions_frozenAs_of_none (h : f.frozen.exclusions = none) (identity : Nat) :
    (f.frozenAs identity).exclusions.map Shared.value =
      some ((f.attributes.exclusions.map Shared.value).getD []) := by
  unfold frozenAs
  rw [h]
  cases f.attributes.exclusions with
  | none => rfl
  | some exclusions => rfl

theorem verifier_freeze (f : Filter) (w : Surroundings) (s : ProcessState) :
    (f.freeze w s).1.2.frozen.verifier = f.frozen.verifier.or f.attributes.verifier := by
  rw [(f.freeze_apply w s).1]
  rfl

theorem exclusions_freeze_of_some (h : f.frozen.exclusions = some exclusions) (w : Surroundings)
    (s : ProcessState) : (f.freeze w s).1.2.frozen.exclusions = some exclusions := by
  rw [(f.freeze_apply w s).1]
  exact exclusions_frozenAs_of_some h s.identities

theorem attributes_configure (f : Filter) (factory : Factory) (p : Parameters) (w : Surroundings)
    (s : ProcessState) :
    (f.configure factory p w s).1.attributes = (f.attributes.configure factory p w s).1.2 := by
  obtain ⟨identity, hconfigure⟩ := f.configure_apply factory p w s
  rw [hconfigure]

theorem verifier_configure (f : Filter) (factory : Factory) (p : Parameters) (w : Surroundings)
    (s : ProcessState) :
    (f.configure factory p w s).1.frozen.verifier =
      f.frozen.verifier.or (f.attributes.configure factory p w s).1.2.verifier := by
  obtain ⟨identity, hconfigure⟩ := f.configure_apply factory p w s
  rw [hconfigure]
  rfl

theorem exclusions_configure_of_some (h : f.frozen.exclusions = some exclusions)
    (factory : Factory) (p : Parameters) (w : Surroundings) (s : ProcessState) :
    (f.configure factory p w s).1.frozen.exclusions = some exclusions := by
  obtain ⟨identity, hconfigure⟩ := f.configure_apply factory p w s
  let g : Filter := { f with attributes := (f.attributes.configure factory p w s).1.2 }
  have hg : g.frozen.exclusions = some exclusions := h
  rw [hconfigure]
  exact exclusions_frozenAs_of_some hg identity

/-- A configuration that fails freezes the exclusions all the same, as they were before it. -/
theorem exclusions_configure_of_error (h : f.frozen.exclusions = none) {e : ConfigurationError}
    (herror : (f.attributes.configure factory p w s).1.1 = .error e) :
    ∃ exclusions, (f.configure factory p w s).1.frozen.exclusions = some exclusions ∧
      exclusions.value = (f.attributes.exclusions.map Shared.value).getD [] := by
  obtain ⟨identity, hconfigure⟩ := f.configure_apply factory p w s
  let g : Filter := { f with attributes := (f.attributes.configure factory p w s).1.2 }
  have hg : g.frozen.exclusions = none := h
  -- the error is that of the list, so the slot in the attributes is as it was
  have hkept : g.attributes.exclusions = f.attributes.exclusions :=
    Attributes.exclusions_configure_of_error herror
  have hfrozen := exclusions_frozenAs_of_none hg identity
  rw [hkept] at hfrozen
  obtain ⟨exclusions, hsome, hvalue⟩ := Option.map_eq_some_iff.mp hfrozen
  rw [hconfigure]
  exact ⟨exclusions, hsome, hvalue⟩

/-- After a configuration that fails, the attributes still take a valid list of exclusions. -/
theorem exclusions_attributes_configure {e : ConfigurationError}
    (herror : (f.attributes.configure factory p w s).1.1 = .error e)
    (hnone : f.attributes.exclusions = none) {p' : Parameters} {text : String}
    {provided : List PathExclusion} (htext : p'.string? ParameterName.pathExclusions = some text)
    (hlist : PathExclusion.ofList text = .ok provided) (factory' : Factory) (w' : Surroundings)
    (s' : ProcessState) :
    ((f.configure factory p w s).1.configure factory' p' w' s').1.attributes.exclusions.map
      Shared.value = some provided := by
  have hempty : (f.configure factory p w s).1.attributes.exclusions = none := by
    rw [f.attributes_configure factory p w s]
    exact (Attributes.exclusions_configure_of_error herror).trans hnone
  have hafter := (Attributes.configure_of_exclusions hempty htext factory' w' s').2
  rw [hlist] at hafter
  rw [attributes_configure]
  exact hafter

/-- The verifier is the first that a configuration leaves in the attributes, or the host assigns
after it; one that is left to the second configuration is what that one finds. After an invalid list
of exclusions, what is frozen are those that the attributes held from the start, whatever the second
configuration or the host puts into the attributes. -/
theorem configure_again (hfresh : f.frozen = {}) (factory factory' : Factory)
    (p p' : Parameters) (w w' : Surroundings) (s s' : ProcessState) :
    let automated := (f.attributes.configure factory p w s).1
    let g := (f.configure factory p w s).1
    let g' := (g.configure factory' p' w' s').1
    let kept := (f.attributes.exclusions.map Shared.value).getD []
    (g'.frozen.verifier = automated.2.verifier.or g'.attributes.verifier ∧
      (automated.2.verifier = none →
        ∃ t, g'.attributes.verifier = (factory'.verifier? p' w' t).1) ∧
      ∀ attributes w s, ({ g with attributes }.freeze w s).1.2.frozen.verifier =
        automated.2.verifier.or attributes.verifier) ∧
    (∀ e, automated.1 = .error e →
      g'.frozen.exclusions.map Shared.value = some kept ∧
      (∀ text provided, f.attributes.exclusions = none →
        p'.string? ParameterName.pathExclusions = some text →
        PathExclusion.ofList text = .ok provided →
        g'.attributes.exclusions.map Shared.value = some provided) ∧
      ∀ attributes w s,
        ({ g with attributes }.freeze w s).1.2.frozen.exclusions.map Shared.value =
          some kept) := by
  intro automated g g' kept
  constructor
  · have hverifier : g.frozen.verifier = automated.2.verifier := by
      rw [f.verifier_configure factory p w s, hfresh]
      exact Option.none_or
    refine ⟨?_, ?_, ?_⟩
    · rw [g.attributes_configure factory' p' w' s', ← hverifier]
      exact g.verifier_configure factory' p' w' s'
    · intro hnone
      -- the attributes still want a verifier
      have hempty : g.attributes.verifier = none := by
        rw [f.attributes_configure factory p w s]
        exact hnone
      rw [g.attributes_configure factory' p' w' s']
      exact Attributes.verifier_configure_of_none hempty factory' p' w' s'
    · intro attributes w s
      rw [verifier_freeze]
      exact congrArg (Option.or · attributes.verifier) hverifier
  · intro e herror
    -- the failed configuration has frozen the slot, and nothing that comes later opens it again
    have hopen : f.frozen.exclusions = none := by rw [hfresh]
    obtain ⟨exclusions, hexclusions, hkept⟩ := exclusions_configure_of_error hopen herror
    have hvalue : (some exclusions).map Shared.value = some kept := congrArg some hkept
    refine ⟨?_, ?_, ?_⟩
    · rw [exclusions_configure_of_some hexclusions factory' p' w' s']
      exact hvalue
    · intro text provided hnone htext hlist
      exact exclusions_attributes_configure herror hnone htext hlist factory' w' s'
    · intro attributes w s
      have hstays := exclusions_freeze_of_some (f := { g with attributes }) hexclusions w s
      rw [hstays]
      exact hvalue

/-- Parameters of nothing but a list of exclusions. -/
def excluding (list : String) : Parameters := .ofList [(ParameterName.pathExclusions, list)]

/-- Parameters of a list of exclusions and of a load balancer. -/
def balancing (list : String) : Parameters :=
  .ofList [(ParameterName.pathExclusions, list), (ParameterName.region, "eu-west-1")]

def bare : Filter where
  defaultEngine := ⟨0, .standard⟩

theorem verifier?_excluding (list : String) (w : Surroundings) (s : ProcessState) :
    (Factory.verifier? {} (excluding list) w s).1 = none := by
  rw [Factory.verifier?_initial]
  rfl

theorem verifier?_balancing (list : String) (w : Surroundings) (s : ProcessState) :
    (Factory.verifier? {} (balancing list) w s).1.isSome = true := by
  rw [Factory.verifier?_initial]
  rfl

theorem configure_bare_blanket : (bare.attributes.configure {} (excluding "/*") midnight {}).1.1 =
    .error (.invalidExclusion "/*" "Cannot have a path exclusion that excludes all paths") := by
  have htext : (excluding "/*").string? ParameterName.pathExclusions = some "/*" := by
    decide
  have hlist : PathExclusion.ofList "/*" =
      .error (.invalidExclusion "/*" "Cannot have a path exclusion that excludes all paths") := by
    decide
  rw [(Attributes.configure_of_exclusions rfl htext {} midnight {}).1, hlist]
  rfl

/-- After a configuration with a blanket exclusion and no verifier, the next one still provides the
verifier, but no longer the exclusions. -/
theorem configure_again_bare :
    let g := (bare.configure {} (excluding "/*") midnight {}).1
    let g' := (g.configure {} (balancing "/health") midnight {}).1
    g'.frozen.verifier.isSome = true ∧ g'.frozen.exclusions.map Shared.value = some [] := by
  obtain ⟨⟨hverifier, hfound, -⟩, hexclusions⟩ :=
    configure_again (f := bare) rfl {} {} (excluding "/*") (balancing "/health") midnight midnight
      {} {}
  have hnone : (bare.attributes.configure {} (excluding "/*") midnight {}).1.2.verifier = none := by
    obtain ⟨t, ht⟩ := Attributes.verifier_configure_of_none (a := bare.attributes) rfl {}
      (excluding "/*") midnight {}
    rw [ht]
    exact verifier?_excluding "/*" midnight t
  constructor
  · obtain ⟨t, ht⟩ := hfound hnone
    rw [hverifier, hnone, Option.none_or, ht]
    exact verifier?_balancing "/health" midnight t
  · obtain ⟨hfrozen, -⟩ := hexclusions _ configure_bare_blanket
    exact hfrozen

/-- A list of exclusions that is configured after an invalid one is in the attributes, but what is
frozen is none. -/
theorem exclusions_configure_late :
    let g := (bare.configure {} (excluding "/*") midnight {}).1
    let g' := (g.configure {} (excluding "/health") midnight {}).1
    (bare.attributes.configure {} (excluding "/*") midnight {}).1.1 =
        .error (.invalidExclusion "/*" "Cannot have a path exclusion that excludes all paths") ∧
      g'.attributes.exclusions.map Shared.value = some [⟨"/health"⟩] ∧
      g'.frozen.exclusions.map Shared.value = some [] := by
  refine ⟨configure_bare_blanket, ?_, ?_⟩
  · have htext : (excluding "/health").string? ParameterName.pathExclusions = some "/health" := by
      decide
    have hlist : PathExclusion.ofList "/health" = .ok [⟨"/health"⟩] := by
      decide
    exact exclusions_attributes_configure configure_bare_blanket rfl htext hlist {} midnight {}
  · obtain ⟨exclusions, hexclusions, hnone⟩ :=
      exclusions_configure_of_error (f := bare) rfl configure_bare_blanket
    rw [exclusions_configure_of_some hexclusions {} (excluding "/health") midnight {}]
    exact congrArg some hnone

end BearerAuth.Filter

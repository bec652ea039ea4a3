import BearerAuth.Proofs.Filter.Frozen

namespace BearerAuth

/-- A process that has done since nothing but to report and to give identities. -/
structure ProcessState.OnlyReports (s s' : ProcessState) : Prop where
  exchanges : s'.exchanges = s.exchanges
  providers : s'.providers = s.providers
  keyAddresses : s'.keyAddresses = s.keyAddresses

namespace ProcessState.OnlyReports

theorem refl (s : ProcessState) : s.OnlyReports s := ⟨rfl, rfl, rfl⟩

theorem trans {s s' s'' : ProcessState} (h : s.OnlyReports s') (h' : s'.OnlyReports s'') :
    s.OnlyReports s'' where
  exchanges := h'.exchanges.trans h.exchanges
  providers := h'.providers.trans h.providers
  keyAddresses := h'.keyAddresses.trans h.keyAddresses

end ProcessState.OnlyReports

theorem FrozenConfiguration.onlyReports_warnIfModified {α : Type} (name : String)
    (current frozen : Option (Shared α)) (w : Surroundings) (s : ProcessState) :
    s.OnlyReports (warnIfModified name current frozen w s).2 := by
  unfold warnIfModified
  cases current with
  | none => exact .refl s
  | some current =>
    cases frozen with
    | none => exact .refl s
    | some frozen =>
      dsimp only
      cases current.isSame frozen with
      | true => exact .refl s
      | false => exact ⟨rfl, rfl, rfl⟩

namespace Filter

/-- The slots as they are after they are frozen; the given identity is for the exclusions, if none
are configured. -/
def frozenAs (f : Filter) (identity : Nat) : FrozenConfiguration where
  exclusions := some ((f.frozen.exclusions.or f.attributes.exclusions).getD ⟨identity, []⟩)
  engine := some ((f.frozen.engine.or f.attributes.engine).getD f.defaultEngine)
  verifier := f.frozen.verifier.or f.attributes.verifier

theorem freezeExclusions_apply (f : Filter) (w : Surroundings) (s : ProcessState) :
    (f.freezeExclusions w s).1 =
        { f with frozen.exclusions := (f.frozenAs s.identities).exclusions } ∧
      s.OnlyReports (f.freezeExclusions w s).2 := by
  obtain ⟨⟨⟨_, _, configured⟩⟩, ⟨⟨engine, verifier, frozen⟩⟩, warnings, defaultEngine⟩ := f
  cases frozen with
  | some exclusions => exact ⟨rfl, FrozenConfiguration.onlyReports_warnIfModified ..⟩
  | none =>
    cases configured with
    | some exclusions => exact ⟨rfl, .refl s⟩
    | none => exact ⟨rfl, rfl, rfl, rfl⟩

theorem freezeEngine_apply (f : Filter) (identity : Nat) (w : Surroundings) (s : ProcessState) :
    (f.freezeEngine w s).1 =
        (.ok (), { f with frozen.engine := (f.frozenAs identity).engine }) ∧
      s.OnlyReports (f.freezeEngine w s).2 := by
  obtain ⟨⟨⟨configured, _, _⟩⟩, ⟨⟨frozen, verifier, exclusions⟩⟩, warnings, defaultEngine⟩ := f
  cases frozen with
  | some engine => exact ⟨rfl, FrozenConfiguration.onlyReports_warnIfModified ..⟩
  | none =>
    cases configured with
    | some engine => exact ⟨rfl, .refl s⟩
    | none => exact ⟨rfl, .refl s⟩

theorem freezeVerifier_apply (f : Filter) (identity : Nat) (w : Surroundings) (s : ProcessState) :
    (f.freezeVerifier w s).1 =
        (if (f.frozenAs identity).verifier.isSome then .ok () else .error .missingVerifier,
          { f with frozen.verifier := (f.frozenAs identity).verifier }) ∧
      s.OnlyReports (f.freezeVerifier w s).2 := by
  obtain ⟨⟨⟨_, configured, _⟩⟩, ⟨⟨engine, frozen, exclusions⟩⟩, warnings, defaultEngine⟩ := f
  cases frozen with
  | some verifier => exact ⟨rfl, FrozenConfiguration.onlyReports_warnIfModified ..⟩
  | none =>
    cases configured with
    | some verifier => exact ⟨rfl, .refl s⟩
    | none => exact ⟨rfl, .refl s⟩

/-- Freezing fails only for want of a verifier, and the other slots are frozen all the same. -/
theorem freeze_apply (f : Filter) (w : Surroundings) (s : ProcessState) :
    (f.freeze w s).1 =
        (if (f.frozenAs s.identities).verifier.isSome then .ok () else .error .missingVerifier,
          { f with frozen := f.frozenAs s.identities }) ∧
      s.OnlyReports (f.freeze w s).2 := by
  -- each slot is frozen by what is configured for it, which the ones before it leave as it is
  let g : Filter := { f with frozen.exclusions := (f.frozenAs s.identities).exclusions }
  let h : Filter := { g with frozen.engine := (g.frozenAs s.identities).engine }
  obtain ⟨hexclusions, hfirst⟩ := f.freezeExclusions_apply w s
  obtain ⟨hengine, hsecond⟩ := g.freezeEngine_apply s.identities w (f.freezeExclusions w s).2
  obtain ⟨hverifier, hthird⟩ :=
    h.freezeVerifier_apply s.identities w (g.freezeEngine w (f.freezeExclusions w s).2).2
  have hfreeze : f.freeze w s =
      h.freezeVerifier w (g.freezeEngine w (f.freezeExclusions w s).2).2 := by
    unfold freeze
    rw [Run.bind_apply, hexclusions, Run.bind_apply, hengine]
  rw [hfreeze, hverifier]
  exact ⟨rfl, (hfirst.trans hsecond).trans hthird⟩

/-- A request is answered by the slots as they are after they are frozen. -/
theorem handle_eq_serve (f : Filter) (r : Request) (w : Surroundings) (s : ProcessState) :
    ∃ s', s.OnlyReports s' ∧
      f.handle r w s = { f with frozen := f.frozenAs s.identities }.serve r w s' := by
  obtain ⟨hfreeze, hreports⟩ := f.freeze_apply w s
  refine ⟨(f.freeze w s).2, hreports, ?_⟩
  unfold handle serve
  rw [Run.bind_apply, hfreeze]
  dsimp only
  split
  · rfl
  · -- a missing verifier is found again by the authentication, with the same error
    unfold authenticate
    cases hverifier : (f.frozenAs s.identities).verifier with
    | none => simp [frozenAs]
    | some verifier => simp

theorem serve_of_excluded {f : Filter} {r : Request} (h : f.excludes r.path = true)
    (w : Surroundings) (s : ProcessState) :
    ∃ warnings s', f.serve r w s = ((⟨.ok .excluded, []⟩, { f with warnings }), s') := by
  unfold serve
  rw [if_pos h, Run.bind_apply]
  exact ⟨_, _, rfl⟩

theorem serve_of_unverified {f : Filter} {r : Request} {engine : Shared Engine}
    (h : f.excludes r.path = false) (hengine : f.frozen.engine = some engine)
    (hverifier : f.frozen.verifier = none) (w : Surroundings) (s : ProcessState) :
    f.serve r w s = ((⟨.error (.configuration .missingVerifier), []⟩, f), s) := by
  unfold serve authenticate
  rw [if_neg (ne_true_of_eq_false h), hengine, hverifier]
  rfl

theorem serve_of_verified {f : Filter} {r : Request} {engine : Shared Engine}
    {verifier : Shared Verifier} (h : f.excludes r.path = false)
    (hengine : f.frozen.engine = some engine) (hverifier : f.frozen.verifier = some verifier)
    (w : Surroundings) (s : ProcessState) :
    let authenticated := engine.value.authenticate r verifier.value w s
    f.serve r w s = ((outcomeOf authenticated.1.1,
      { f with frozen.verifier := some { verifier with value := authenticated.1.2 } }),
      authenticated.2) := by
  unfold serve authenticate
  rw [if_neg (ne_true_of_eq_false h), hengine, hverifier]
  rfl

/-- Configuration freezes what its automated part leaves, whether that failed or not. -/
theorem configure_apply (f : Filter) (factory : Factory) (p : Parameters) (w : Surroundings)
    (s : ProcessState) :
    let g : Filter := { f with attributes := (f.attributes.configure factory p w s).1.2 }
    ∃ identity, (f.configure factory p w s).1 = { g with frozen := g.frozenAs identity } := by
  dsimp only
  unfold configure
  rw [Run.bind_apply]
  rcases f.attributes.configure factory p w s with ⟨⟨configured, attributes⟩, s₁⟩
  dsimp only
  let g : Filter := { f with attributes }
  -- what is reported, before and after, takes no identity and changes nothing of the filter
  refine ⟨s₁.identities, ?_⟩
  cases configured with
  | error e =>
    dsimp only [Run.bind_apply, Run.say, Run.report]
    rw [(g.freeze_apply w _).1]
    dsimp only
    cases (g.frozenAs s₁.identities).verifier.isSome with
    | true => rfl
    | false => rfl
  | ok u =>
    dsimp only [Run.bind_apply]
    rw [(g.freeze_apply w _).1]
    cases (g.frozenAs s₁.identities).verifier.isSome with
    | true => rfl
    | false => rfl

end Filter

end BearerAuth

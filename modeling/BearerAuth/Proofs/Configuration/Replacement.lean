import BearerAuth.Proofs.Configuration.Attributes
import BearerAuth.Proofs.Configuration.Once
import BearerAuth.Proofs.Configuration.Readings
import BearerAuth.Proofs.Exclusion.Paths

namespace BearerAuth

namespace Parameters

variable {p : Parameters} {name other : String}

/-- What is set already may be replaced. -/
def AllowsMultiple (p : Parameters) : Prop :=
  (p.string? ParameterName.allowMultiple).bind truthValue? = some true

instance (p : Parameters) : Decidable p.AllowsMultiple := inferInstanceAs (Decidable (_ = _))

/-- An entry of the list of exclusions is not blank, and has nothing but wildcards, slashes and
spaces in it. -/
def ExcludesAll (p : Parameters) : Prop :=
  ∃ list entry, p.string? ParameterName.pathExclusions = some list ∧ entry ∈ Text.split ',' list ∧
    Text.isBlank entry = false ∧ ∀ c ∈ (Text.trim entry).toList, c = '*' ∨ c = '/' ∨ c = ' '

/-- The parameters without one of them. -/
def without (p : Parameters) (name : String) : Parameters := fun other =>
  if other = name then none else p other

theorem boolean_allowMultiple_iff (p : Parameters) (w : Surroundings) (s : ProcessState) :
    (p.boolean ParameterName.allowMultiple false w s).1 = true ↔ p.AllowsMultiple :=
  p.boolean_eq_true_iff ParameterName.allowMultiple w s

theorem string?_without_self (p : Parameters) (name : String) :
    (p.without name).string? name = none := by
  unfold string? without
  rw [if_pos rfl]
  rfl

theorem string?_without (h : other ≠ name) : (p.without name).string? other = p.string? other := by
  unfold string? without
  rw [if_neg h]

theorem boolean_without (h : other ≠ name) (default : Bool) :
    (p.without name).boolean other default = p.boolean other default := by
  unfold boolean
  rw [string?_without h]

theorem number_without (h : other ≠ name) (default : Nat) :
    (p.without name).number other default = p.number other default := by
  unfold number
  rw [string?_without h]

theorem list_without (h : other ≠ name) : (p.without name).list other = p.list other := by
  unfold list
  rw [string?_without h]

end Parameters

namespace Provider

variable {α : Type}

/-- A provider to which it makes no difference whether a parameter is there. -/
def Overlooks (provider : Provider α) (name : String) : Prop :=
  ∀ p : Parameters, provider.configure (p.without name) = provider.configure p

theorem firstOf_without {report : String → ConfigurationError → Run Unit} {name : String}
    {providers : List (Provider α)} (h : ∀ provider ∈ providers, provider.Overlooks name)
    (p : Parameters) : firstOf report (p.without name) providers = firstOf report p providers := by
  induction providers with
  | nil => rfl
  | cons provider rest ih =>
    obtain ⟨hfirst, hrest⟩ := List.forall_mem_cons.mp h
    unfold firstOf
    rw [hfirst p, ih hrest]

open Parameters in
theorem overlooks_keys : keys.Overlooks ParameterName.pathExclusions := by
  intro p
  simp (disch := decide) only [keys, clockSkew, publishing, publicKey, requestTimeout,
    cacheLifetime, string?_without, number_without]

open Parameters in
theorem overlooks_discovery : discovery.Overlooks ParameterName.pathExclusions := by
  intro p
  simp (disch := decide) only [discovery, clockSkew, requestTimeout, cacheLifetime,
    string?_without, number_without]

open Parameters in
theorem overlooks_loadBalancer : loadBalancer.Overlooks ParameterName.pathExclusions := by
  intro p
  simp (disch := decide) only [loadBalancer, clockSkew, requestTimeout, string?_without,
    number_without]

open Parameters in
theorem overlooks_headers : headers.Overlooks ParameterName.pathExclusions := by
  intro p
  simp (disch := decide) only [headers, headerSources, engineOf, string?_without, boolean_without,
    list_without]

end Provider

namespace Factory

/-- To none of the providers that are registered it makes a difference whether a parameter is
there. -/
structure Overlooks (f : Factory) (name : String) : Prop where
  verifiers : ∀ provider ∈ f.verifiers, provider.Overlooks name
  engines : ∀ provider ∈ f.engines, provider.Overlooks name

/-- The providers that are there from the start do not look at the exclusions. -/
theorem overlooks_initial : Overlooks {} ParameterName.pathExclusions where
  verifiers := by
    simpa [Provider.verifiers] using
      ⟨Provider.overlooks_discovery, Provider.overlooks_loadBalancer, Provider.overlooks_keys⟩
  engines := List.forall_mem_singleton.mpr Provider.overlooks_headers

variable {f : Factory} {name : String}

theorem Overlooks.verifier? (h : f.Overlooks name) (p : Parameters) :
    f.verifier? (p.without name) = f.verifier? p :=
  Provider.firstOf_without
    (fun provider hmem => h.verifiers provider (List.mem_mergeSort.mp hmem)) p

theorem Overlooks.engine? (h : f.Overlooks name) (p : Parameters) :
    f.engine? (p.without name) = f.engine? p :=
  Provider.firstOf_without
    (fun provider hmem => h.engines provider (List.mem_mergeSort.mp hmem)) p

end Factory

/-- A list of exclusions is invalid if an entry of it would exclude every path. -/
theorem PathExclusion.ofList_eq_error_iff (list : String) :
    (∃ e, ofList list = .error e) ↔ ∃ entry ∈ Text.split ',' list, Text.isBlank entry = false ∧
      ∀ c ∈ (Text.trim entry).toList, c = '*' ∨ c = '/' ∨ c = ' ' := by
  simp only [← isBlanket_eq_true_iff, ← and_assoc, ← mem_entries_iff]
  have hvalid := ofList_eq_ok_iff list
  cases hlist : ofList list with
  | error e =>
    refine iff_of_true ⟨e, rfl⟩ ?_
    by_contra hnone
    have hall : ∀ entry ∈ entries list, isBlanket (Text.trim entry) = false := by
      intro entry hmem
      rw [← Bool.not_eq_true]
      exact fun hblanket => hnone ⟨entry, hmem, hblanket⟩
    exact nomatch hlist.symm.trans ((hvalid _).mpr ⟨hall, rfl⟩)
  | ok exclusions =>
    refine iff_of_false nofun ?_
    rintro ⟨entry, hmem, hblanket⟩
    rw [((hvalid _).mp hlist).1 entry hmem] at hblanket
    exact Bool.false_ne_true hblanket

namespace Attributes

/-- The part of a call that is not about the exclusions. -/
def configureOthers (a : Attributes) (factory : Factory) (p : Parameters) : Run Attributes := do
  let replace ← p.boolean ParameterName.allowMultiple false
  let a ← a.configureVerifier factory p replace
  a.configureEngine factory p replace

/-- A call considers the slots that are not set, and all of them if the parameters allow what is set
to be replaced. -/
def Considers (a : Attributes) (p : Parameters) (slot : Slot) : Prop :=
  a.get slot = none ∨ p.AllowsMultiple

/-- The process at the time when a call gets to a slot. -/
def reached (a : Attributes) (factory : Factory) (p : Parameters) (w : Surroundings)
    (s : ProcessState) : Slot → ProcessState
  | .verifier => (p.boolean ParameterName.allowMultiple false w s).2
  | .engine =>
    let allowed := p.boolean ParameterName.allowMultiple false w s
    (a.configureVerifier factory p allowed.1 w allowed.2).2
  | .exclusions => (a.configureOthers factory p w s).2

/-- What there is for a slot when a call gets to it: what the providers give, or a valid list of
exclusions. -/
def found (a : Attributes) (factory : Factory) (p : Parameters) (w : Surroundings)
    (s : ProcessState) : (slot : Slot) → Option (Shared slot.Value)
  | .verifier => (factory.verifier? p w (a.reached factory p w s .verifier)).1
  | .engine => (factory.engine? p w (a.reached factory p w s .engine)).1
  | .exclusions =>
    (validExclusions? p).map (Shared.mk (a.reached factory p w s .exclusions).identities)

/-- Configures attributes, whatever comes of it. -/
def perform (a : Attributes) (call : Factory × Parameters) : Run Attributes := do
  let (_, a) ← a.configure call.1 call.2
  return a

variable {a : Attributes} {factory : Factory} {p : Parameters} {slot : Slot} {w : Surroundings}
  {s : ProcessState}

theorem considers_iff (a : Attributes) (p : Parameters) (slot : Slot) (w : Surroundings)
    (s : ProcessState) :
    ((a.get slot).isNone || (p.boolean ParameterName.allowMultiple false w s).1) = true ↔
      a.Considers p slot := by
  unfold Considers
  rw [Bool.or_eq_true, Option.isNone_iff_eq_none, Parameters.boolean_allowMultiple_iff]

theorem configure_apply (a : Attributes) (factory : Factory) (p : Parameters) (w : Surroundings)
    (s : ProcessState) :
    a.configure factory p w s = (a.configureOthers factory p w s).1.configureExclusions p
      (p.boolean ParameterName.allowMultiple false w s).1 w
      (a.configureOthers factory p w s).2 := rfl

/-- The slot for the exclusions is as it was when a call gets to it. -/
theorem exclusions_configureOthers (a : Attributes) (factory : Factory) (p : Parameters)
    (w : Surroundings) (s : ProcessState) :
    (a.configureOthers factory p w s).1.exclusions = a.exclusions := by
  unfold configureOthers
  simp only [Run.bind_apply, configureVerifier_eq, configureEngine_eq]

/-- A slot that a call considers takes what there is for it, and keeps what it has if there is
nothing. -/
theorem get_configure_eq (a : Attributes) (factory : Factory) (p : Parameters) (slot : Slot)
    (w : Surroundings) (s : ProcessState) :
    (a.configure factory p w s).1.2.get slot =
      if (a.get slot).isNone || (p.boolean ParameterName.allowMultiple false w s).1 then
        (a.found factory p w s slot).or (a.get slot) else a.get slot := by
  rw [configure_apply, configureExclusions_eq, exclusions_configureOthers]
  -- each slot is set in a part of its own, which starts from what the parts before it leave
  cases slot with
  | exclusions => rfl
  | engine =>
    unfold configureOthers
    simp only [Slots.get, Run.bind_apply, configureEngine_eq]
    rw [configureVerifier_eq]
    rfl
  | verifier =>
    unfold configureOthers
    simp only [Slots.get, Run.bind_apply, configureEngine_eq, configureVerifier_eq]
    rfl

theorem get_configure_of_considered (h : a.Considers p slot) :
    (a.configure factory p w s).1.2.get slot =
      (a.found factory p w s slot).or (a.get slot) := by
  rw [get_configure_eq, if_pos ((considers_iff a p slot w s).mpr h)]

theorem get_configure_of_not_considered (h : ¬ a.Considers p slot) :
    (a.configure factory p w s).1.2.get slot = a.get slot := by
  rw [get_configure_eq, if_neg (fun hset => h ((considers_iff a p slot w s).mp hset))]

theorem get_configure_ne_none (h : a.get slot ≠ none) (factory : Factory) (p : Parameters)
    (w : Surroundings) (s : ProcessState) :
    (a.configure factory p w s).1.2.get slot ≠ none := by
  by_cases hconsidered : a.Considers p slot
  · rw [get_configure_of_considered hconsidered]
    exact fun hnone => h (Option.or_eq_none_iff.mp hnone).2
  · rw [get_configure_of_not_considered hconsidered]
    exact h

/-- A call fails exactly if it considers the exclusions and finds an entry that excludes every path.
-/
theorem configure_eq_error_iff (a : Attributes) (factory : Factory) (p : Parameters)
    (w : Surroundings) (s : ProcessState) :
    (∃ e, (a.configure factory p w s).1.1 = .error e) ↔
      a.Considers p .exclusions ∧ p.ExcludesAll := by
  rw [← considers_iff a p .exclusions w s, configure_apply]
  simp only [configureExclusions_eq_error_iff, exclusions_configureOthers, exists_and_left]
  refine and_congr Iff.rfl ?_
  constructor
  · rintro ⟨e, list, htext, hlist⟩
    obtain ⟨entry, hentry⟩ := (PathExclusion.ofList_eq_error_iff list).mp ⟨e, hlist⟩
    exact ⟨list, entry, htext, hentry⟩
  · rintro ⟨list, entry, htext, hentry⟩
    obtain ⟨e, hlist⟩ := (PathExclusion.ofList_eq_error_iff list).mpr ⟨entry, hentry⟩
    exact ⟨e, list, htext, hlist⟩

/-- A call that fails leaves what its other parts have made of the attributes. -/
theorem configure_of_error {e : ConfigurationError}
    (h : (a.configure factory p w s).1.1 = .error e) :
    (a.configure factory p w s).1.2 = (a.configureOthers factory p w s).1 := by
  rw [configure_apply] at h ⊢
  obtain ⟨exclusions, hexclusions, hkept⟩ := (a.configureOthers factory p w s).1
    |>.configureExclusions_apply p (p.boolean ParameterName.allowMultiple false w s).1 w
      (a.configureOthers factory p w s).2
  rw [hexclusions, hkept e h]

/-- So does a call without a list of exclusions, if the providers do not miss it. -/
theorem configure_without (h : factory.Overlooks ParameterName.pathExclusions) (a : Attributes)
    (p : Parameters) (w : Surroundings) (s : ProcessState) :
    (a.configure factory (p.without ParameterName.pathExclusions) w s).1 =
      (.ok (), (a.configureOthers factory p w s).1) := by
  -- the other part neither looks at the list nor hands it to anyone who does
  have hothers : a.configureOthers factory (p.without ParameterName.pathExclusions) =
      a.configureOthers factory p := by
    unfold configureOthers configureVerifier configureEngine
    rw [Parameters.boolean_without (by decide), h.verifier? p, h.engine? p]
  have hnone := p.string?_without_self ParameterName.pathExclusions
  rw [configure_apply, hothers]
  unfold configureExclusions
  rw [hnone]
  split <;> rfl

/-- Over any calls, each with its own parameters and providers, a slot that is set is never unset,
and it stays as it is as long as no call allows it to be replaced. One more call leaves the slots
that it does not consider as they are, and puts into the others what there is for them. It fails
exactly if it considers the exclusions and an entry of their list would exclude every path; the
exclusions then stay as they are, and the verifier and the engine are what the same call makes of
them without a list of exclusions. -/
theorem configure_replaces (a : Attributes)
    (moments : List (Surroundings × Factory × Parameters)) (s : ProcessState) :
    let run := Run.course perform a moments s
    (∀ slot, a.get slot ≠ none → run.1.get slot ≠ none) ∧
    (∀ slot v, a.get slot = some v → (∀ moment ∈ moments, ¬ moment.2.2.AllowsMultiple) →
      run.1.get slot = some v) ∧
    ∀ factory p w,
      let next := run.1.configure factory p w run.2
      (∀ slot, ¬ run.1.Considers p slot → next.1.2.get slot = run.1.get slot) ∧
      (∀ slot, run.1.Considers p slot →
        next.1.2.get slot = (run.1.found factory p w run.2 slot).or (run.1.get slot)) ∧
      ((∃ e, next.1.1 = .error e) ↔ run.1.Considers p .exclusions ∧ p.ExcludesAll) ∧
      ∀ e, next.1.1 = .error e →
        next.1.2.exclusions = run.1.exclusions ∧
        next.1.2 = (run.1.configureOthers factory p w run.2).1 ∧
        (factory.Overlooks ParameterName.pathExclusions →
          (run.1.configure factory (p.without ParameterName.pathExclusions) w run.2).1 =
            (.ok (), next.1.2)) := by
  intro run
  refine ⟨?_, ?_, ?_⟩
  · intro slot hset
    exact Run.course_keeps (P := fun a : Attributes => a.get slot ≠ none)
      (fun w call _ a s hset => get_configure_ne_none hset call.1 call.2 w s) hset s
  · intro slot v hset hkept
    refine Run.course_keeps (P := fun a : Attributes => a.get slot = some v) ?_ hset s
    intro w call hmoment a s hset
    have hignored : ¬ a.Considers call.2 slot := by
      rintro (hnone | hallowed)
      · exact nomatch hset.symm.trans hnone
      · exact hkept _ hmoment hallowed
    exact (get_configure_of_not_considered hignored).trans hset
  · intro factory p w next
    refine ⟨fun slot => get_configure_of_not_considered, fun slot => get_configure_of_considered,
      run.1.configure_eq_error_iff factory p w run.2, ?_⟩
    intro e herror
    have hnext : next.1.2 = (run.1.configureOthers factory p w run.2).1 :=
      configure_of_error herror
    refine ⟨?_, hnext, ?_⟩
    · rw [hnext]
      exact exclusions_configureOthers _ factory p w run.2
    · intro hoverlooks
      rw [hnext]
      exact configure_without hoverlooks run.1 p w run.2

/-- Parameters of a load balancer and of exclusions with an entry that excludes every path. -/
def careless : Parameters :=
  .ofList [(ParameterName.region, "eu-west-1"), (ParameterName.pathExclusions, "/health, /*")]

theorem excludesAll_careless : careless.ExcludesAll :=
  ⟨"/health, /*", " /*", by decide, by decide, by decide,
    (PathExclusion.isBlanket_eq_true_iff _).mp (by decide)⟩

/-- Two careless calls in turn: the second fails for the exclusions and keeps the verifier of the
first. -/
theorem configure_replaces_careless :
    let first := Run.course perform {} [(midnight, {}, careless)] {}
    let next := first.1.configure {} careless midnight first.2
    first.1.get .verifier ≠ none ∧ next.1.2.get .verifier = first.1.get .verifier ∧
      ∃ e, next.1 = (.error e, next.1.2) ∧ next.1.2.exclusions = first.1.exclusions ∧
        (first.1.configure {} (careless.without ParameterName.pathExclusions) midnight
          first.2).1 = (.ok (), next.1.2) := by
  intro first next
  have hverifier : first.1.get .verifier ≠ none := by
    obtain ⟨t, ht⟩ := verifier_configure_of_none (a := {}) rfl {} careless midnight {}
    have hfound : (Factory.verifier? {} careless midnight t).1.isSome = true := by
      rw [Factory.verifier?_initial]
      rfl
    rw [← ht] at hfound
    exact Option.isSome_iff_ne_none.mp hfound
  have hexclusions : first.1.get .exclusions = none := by
    have hinvalid : validExclusions? careless = none := by decide
    have hconsidered : ({} : Attributes).Considers careless .exclusions := Or.inl rfl
    refine (get_configure_of_considered hconsidered).trans ?_
    unfold found
    rw [hinvalid]
    rfl
  have hignored : ¬ first.1.Considers careless .verifier := by
    rintro (hnone | hallowed)
    · exact hverifier hnone
    · exact absurd hallowed (by decide)
  obtain ⟨-, -, hnext⟩ := configure_replaces {} [(midnight, {}, careless)] {}
  obtain ⟨hkept, -, hfails, hafter⟩ := hnext {} careless midnight
  obtain ⟨e, he⟩ := hfails.mpr ⟨Or.inl hexclusions, excludesAll_careless⟩
  obtain ⟨hsame, -, hwithout⟩ := hafter e he
  exact ⟨hverifier, hkept .verifier hignored, e, Prod.ext he rfl, hsame,
    hwithout Factory.overlooks_initial⟩

end Attributes

end BearerAuth

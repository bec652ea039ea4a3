import BearerAuth.Proofs.Surroundings.Reports

namespace BearerAuth

open Run

namespace Parameters

variable {areas : Area → Prop}

theorem reportsIn_boolean (h : areas .parameters) (p : Parameters) (name : String)
    (default : Bool) : (p.boolean name default).ReportsIn areas := by
  unfold boolean
  cases p.string? name with
  | none => exact .pure _
  | some text =>
    dsimp only
    cases truthValue? text with
    | some b => exact .pure _
    | none => exact .bind (.say _ _ h) fun _ => .pure _

theorem reportsIn_number (h : areas .parameters) (p : Parameters) (name : String) (default : Nat) :
    (p.number name default).ReportsIn areas := by
  unfold number
  cases p.string? name with
  | none => exact .pure _
  | some text =>
    dsimp only
    cases number64? text with
    | some n => exact .pure _
    | none => exact .bind (.say _ _ h) fun _ => .pure _

end Parameters

theorem Shared.reportsIn_fresh {α : Type} {areas : Area → Prop} (value : α) :
    (fresh value).ReportsIn areas :=
  .bind reportsIn_freshIdentity fun _ => .pure _

namespace Provider

/-- A provider that reports nothing of frozen slots. -/
def Discreet {α : Type} (provider : Provider α) : Prop :=
  ∀ p, (provider.configure p).ReportsIn (· ≠ .frozen)

theorem reportsIn_clockSkew (p : Parameters) : (clockSkew p).ReportsIn (· ≠ .frozen) := by
  refine .bind (p.reportsIn_number nofun _ _) fun skew => ?_
  split
  · exact .bind (.say _ _ nofun) fun _ => .pure _
  · exact .pure _

theorem reportsIn_requestTimeout (p : Parameters) : (requestTimeout p).ReportsIn (· ≠ .frozen) :=
  .bind (p.reportsIn_number nofun _ _) fun _ => .pure _

theorem reportsIn_cacheLifetime (p : Parameters) : (cacheLifetime p).ReportsIn (· ≠ .frozen) :=
  .bind (p.reportsIn_number nofun _ _) fun _ => .pure _

theorem reportsIn_provide (kind : String) (v : SignedVerifier) :
    (provide kind v).ReportsIn (· ≠ .frozen) :=
  .bind (.say _ _ nofun) fun _ => Shared.reportsIn_fresh _

theorem reportsIn_holding (skew : Nat) (key : Except KeyError DirectKey) :
    (holding skew key).ReportsIn (· ≠ .frozen) := by
  cases key with
  | error e => exact .pure _
  | ok key => exact .bind (reportsIn_provide _ _) fun _ => .pure _

theorem reportsIn_publishing (p : Parameters) (skew : Nat) (location : String) :
    (publishing p skew location).ReportsIn (· ≠ .frozen) := by
  refine .bind (reportsIn_requestTimeout p) fun _ => .bind reportsIn_surroundings fun w => ?_
  cases KeySetLocation.ofText w.files location with
  | error e => exact .pure _
  | ok location =>
    refine .bind (reportsIn_cacheLifetime p) fun lifetime => ?_
    exact .bind (reportsIn_provide _ _) fun _ => .pure _

theorem reportsIn_publicKey (p : Parameters) (skew : Nat) (path : String) :
    (publicKey p skew path).ReportsIn (· ≠ .frozen) := by
  unfold publicKey
  dsimp only
  cases PublicKeyKind.ofName?
    ((p.string? ParameterName.keyAlgorithm).getD PublicKeyKind.rsa.name) with
  | none => exact .pure _
  | some kind => exact .bind reportsIn_surroundings fun w => reportsIn_holding skew _

theorem discreet_keys : keys.Discreet := by
  intro p
  refine .bind (reportsIn_clockSkew p) fun skew => ?_
  -- a key set, a secret, a public key, or none of these
  split
  · exact reportsIn_publishing p skew _
  · exact .bind reportsIn_surroundings fun w => reportsIn_holding skew _
  · exact reportsIn_publicKey p skew _
  · exact .bind (.say _ _ nofun) fun _ => .pure _

theorem discreet_discovery : discovery.Discreet := by
  intro p
  unfold discovery
  dsimp only
  cases p.string? ParameterName.providerAddress with
  | none => exact .pure _
  | some address =>
    refine .bind (reportsIn_requestTimeout p) fun _ => .bind ?_ fun keys => ?_
    · unfold DiscoveredKeys.ofProvider
      dsimp only
      split
      · exact .bind (.say _ _ nofun) fun _ => .pure _
      · exact .pure _
    · refine .bind (p.reportsIn_number nofun _ _) fun interval => ?_
      refine .bind (reportsIn_cacheLifetime p) fun lifetime => ?_
      refine .bind (reportsIn_clockSkew p) fun skew => ?_
      exact .bind (reportsIn_provide _ _) fun _ => .pure _

theorem discreet_loadBalancer : loadBalancer.Discreet := by
  intro p
  unfold loadBalancer
  dsimp only
  cases p.string? ParameterName.region with
  | none => exact .pure _
  | some region =>
    refine .bind (reportsIn_requestTimeout p) fun _ => ?_
    cases SignedVerifier.ofLoadBalancer region with
    | error e => exact .pure _
    | ok verifier =>
      refine .bind (reportsIn_clockSkew p) fun skew => ?_
      exact .bind (reportsIn_provide _ _) fun _ => .pure _

theorem discreet_headers : headers.Discreet := by
  intro p
  refine .bind (.bind (p.reportsIn_boolean nofun _ _) fun _ => .pure _) fun sources => ?_
  split
  · exact .pure _
  · exact .pure _
  · next sources _ =>
    cases engineOf p sources with
    | error e => exact .pure _
    | ok engine =>
      refine .bind (.say _ _ nofun) fun _ => ?_
      exact .bind (Shared.reportsIn_fresh engine) fun _ => .pure _

theorem reportsIn_firstOf {α : Type} {report : String → ConfigurationError → Run Unit}
    (hreport : ∀ name e, (report name e).ReportsIn (· ≠ .frozen)) (p : Parameters)
    {providers : List (Provider α)} (h : ∀ provider ∈ providers, provider.Discreet) :
    (firstOf report p providers).ReportsIn (· ≠ .frozen) := by
  induction providers with
  | nil => exact .pure _
  | cons provider rest ih =>
    -- the others are asked if the first has nothing or fails
    obtain ⟨hfirst, hrest⟩ := List.forall_mem_cons.mp h
    refine .bind (hfirst p) fun result => ?_
    split
    · exact .pure _
    · exact ih hrest
    · exact .bind (hreport _ _) fun _ => ih hrest

end Provider

namespace Factory

/-- None of the providers that are registered reports anything of frozen slots. -/
structure Discreet (f : Factory) : Prop where
  verifiers : ∀ provider ∈ f.verifiers, provider.Discreet
  engines : ∀ provider ∈ f.engines, provider.Discreet

/-- The providers that are there from the start report nothing of frozen slots. -/
theorem discreet_initial : Discreet {} where
  verifiers := by
    simpa [Provider.verifiers] using
      ⟨Provider.discreet_discovery, Provider.discreet_loadBalancer, Provider.discreet_keys⟩
  engines := List.forall_mem_singleton.mpr Provider.discreet_headers

variable {f : Factory}

theorem Discreet.reportsIn_verifier? (h : f.Discreet) (p : Parameters) :
    (f.verifier? p).ReportsIn (· ≠ .frozen) := by
  have hreport : ∀ name e, (Provider.reportVerifier name e).ReportsIn (· ≠ .frozen) :=
    fun _ _ => .say _ _ nofun
  refine Provider.reportsIn_firstOf hreport p fun provider hmem => ?_
  exact h.verifiers provider (List.mem_mergeSort.mp hmem)

theorem Discreet.reportsIn_engine? (h : f.Discreet) (p : Parameters) :
    (f.engine? p).ReportsIn (· ≠ .frozen) := by
  have hreport : ∀ name e, (Provider.reportEngine name e).ReportsIn (· ≠ .frozen) :=
    fun _ _ => .say _ _ nofun
  refine Provider.reportsIn_firstOf hreport p fun provider hmem => ?_
  exact h.engines provider (List.mem_mergeSort.mp hmem)

end Factory

namespace Attributes

variable {factory : Factory} (h : factory.Discreet) (a : Attributes) (p : Parameters)
include h

theorem reportsIn_configureVerifier (replace : Bool) :
    (a.configureVerifier factory p replace).ReportsIn (· ≠ .frozen) := by
  unfold configureVerifier
  split
  · refine .bind (h.reportsIn_verifier? p) fun verifier => ?_
    cases verifier with
    | some verifier => exact .pure _
    | none => exact .bind (.say _ _ nofun) fun _ => .pure _
  · exact .bind (.say _ _ nofun) fun _ => .pure _

theorem reportsIn_configureEngine (replace : Bool) :
    (a.configureEngine factory p replace).ReportsIn (· ≠ .frozen) := by
  unfold configureEngine
  split
  · refine .bind (h.reportsIn_engine? p) fun engine => ?_
    cases engine <;> exact .pure _
  · exact .bind (.say _ _ nofun) fun _ => .pure _

omit h in
theorem reportsIn_configureExclusions (replace : Bool) :
    (a.configureExclusions p replace).ReportsIn (· ≠ .frozen) := by
  unfold configureExclusions
  split
  · cases p.string? ParameterName.pathExclusions with
    | none => exact .pure _
    | some text =>
      dsimp only
      cases PathExclusion.ofList text with
      | error e => exact .pure _
      | ok exclusions =>
        refine .bind (.say _ _ nofun) fun _ => ?_
        exact .bind (Shared.reportsIn_fresh exclusions) fun _ => .pure _
  · exact .bind (.say _ _ nofun) fun _ => .pure _

theorem reportsIn_configure : (a.configure factory p).ReportsIn (· ≠ .frozen) := by
  refine .bind (p.reportsIn_boolean nofun _ _) fun replace => ?_
  refine .bind (reportsIn_configureVerifier h a p replace) fun a => ?_
  refine .bind (reportsIn_configureEngine h a p replace) fun a => ?_
  exact reportsIn_configureExclusions a p replace

end Attributes

end BearerAuth

import Mathlib.Tactic.Common
import BearerAuth.Filter
import BearerAuth.Proofs.Surroundings.Records

namespace BearerAuth

namespace Run

variable {α β : Type} {areas : Area → Prop}

/-- A computation that leaves the events of a process as they are, but for new ones of some
areas. -/
def ReportsIn (areas : Area → Prop) (x : Run α) : Prop :=
  ∀ w s, ∃ added, (x w s).2.events = s.events ++ added ∧ ∀ event ∈ added, areas event.area

namespace ReportsIn

theorem of_events {x : Run α} (h : ∀ w s, (x w s).2.events = s.events) : x.ReportsIn areas :=
  Appends.of_eq h

theorem pure (a : α) : (Pure.pure a : Run α).ReportsIn areas := of_events fun _ _ => rfl

/-- Of two computations in turn, the first adds its events before the second. -/
theorem bind {x : Run α} {f : α → Run β} (hx : x.ReportsIn areas)
    (hf : ∀ a, (f a).ReportsIn areas) : (x >>= f).ReportsIn areas :=
  Appends.bind hx hf

theorem report {event : Event} (h : areas event.area) : (Run.report event).ReportsIn areas := by
  intro w s
  exact ⟨[event], rfl, List.forall_mem_singleton.mpr h⟩

theorem say (level : Level) {area : Area} (message : String) (h : areas area) :
    (Run.say level area message).ReportsIn areas :=
  report h

theorem forM {x : α → Run Unit} (h : ∀ a, (x a).ReportsIn areas) (as : List α) :
    (as.forM x).ReportsIn areas := by
  induction as with
  | nil => exact pure ()
  | cons a as ih => exact bind (h a) fun _ => ih

end ReportsIn

theorem reportsIn_surroundings : surroundings.ReportsIn areas := .of_events fun _ _ => rfl

theorem reportsIn_knownProvider (uri : String) : (knownProvider uri).ReportsIn areas :=
  .of_events fun _ _ => rfl

theorem reportsIn_registerProvider (uri : String) (configuration : ProviderConfiguration) :
    (registerProvider uri configuration).ReportsIn areas :=
  .of_events fun _ _ => rfl

theorem reportsIn_keyAddress (region keyId : String) : (keyAddress region keyId).ReportsIn areas :=
  .of_events fun _ _ => rfl

theorem reportsIn_freshIdentity : freshIdentity.ReportsIn areas := .of_events fun _ _ => rfl

theorem reportsIn_fetch (url : String) : (fetch url).ReportsIn areas := by
  unfold fetch
  cases fetchAddress url with
  | error e => exact .pure _
  | ok address => exact .of_events fun _ _ => rfl

theorem reportsIn_fetchKeys (url : String) : (fetchKeys url).ReportsIn areas :=
  .bind (reportsIn_fetch url) fun _ => .pure _

end Run

open Run

variable {areas : Area → Prop}

namespace KeySet

theorem reportsIn_load (location : KeySetLocation) : (load location).ReportsIn areas := by
  refine .bind ?_ fun _ => .pure _
  cases location with
  | network url => exact reportsIn_fetchKeys url.text
  | file path => exact .bind reportsIn_surroundings fun _ => .pure _

theorem reportsIn_locate (location : KeySetLocation) (header : KeyHeader) :
    (locate location header).ReportsIn areas := by
  unfold locate
  cases header.requireKeyId with
  | error e => exact .pure _
  | ok id =>
    refine .bind (reportsIn_load location) fun keys => ?_
    cases keys with
    | error e => exact .pure _
    | ok keys =>
      dsimp only
      cases keys.lookup id <;> exact .pure _

end KeySet

namespace CachedKeySet

theorem reportsIn_reload (c : CachedKeySet) (id : String) : (c.reload id).ReportsIn areas := by
  refine .bind (KeySet.reportsIn_load c.location) fun keys => ?_
  cases keys with
  | error e => exact .pure _
  | ok keys =>
    refine .bind reportsIn_surroundings fun w => ?_
    cases lastOf keys id <;> exact .pure _

theorem reportsIn_locate (c : CachedKeySet) (header : KeyHeader) :
    (c.locate header).ReportsIn areas := by
  unfold locate
  cases header.requireKeyId with
  | error e => exact .pure _
  | ok id =>
    refine .bind reportsIn_surroundings fun w => ?_
    rcases c.find w.instant id with ⟨_ | key, c'⟩
    · exact c'.reportsIn_reload id
    · exact .pure _

end CachedKeySet

namespace DiscoveredKeys

theorem reportsIn_keySetAddress (address : String) : (keySetAddress address).ReportsIn areas := by
  refine .bind ?_ fun configuration => ?_
  · refine .bind (reportsIn_knownProvider address) fun known => ?_
    cases known with
    | some configuration => exact .pure _
    | none =>
      refine .bind (reportsIn_fetchKeys address) fun document => ?_
      cases document with
      | error e => exact .pure _
      | ok document =>
        refine .bind reportsIn_surroundings fun w => ?_
        cases ProviderConfiguration.ofText w.formMessages document with
        | error reason => exact .pure _
        | ok configuration =>
          exact .bind (reportsIn_registerProvider address configuration) fun _ => .pure _
  · cases configuration with
    | error e => exact .pure _
    | ok configuration =>
      dsimp only
      cases configuration.jwksUri.bind Text.nonBlank? <;> exact .pure _

variable (hdiscovery : areas .discovery)
include hdiscovery

theorem reportsIn_discover (d : DiscoveredKeys) : d.discover.ReportsIn areas := by
  refine .bind reportsIn_surroundings fun w => ?_
  refine .bind (reportsIn_keySetAddress d.address) fun address => ?_
  cases address with
  | error e => exact .bind (.say _ _ hdiscovery) fun _ => .pure _
  | ok uri =>
    refine .bind (.say _ _ hdiscovery) fun _ => ?_
    cases KeySetLocation.ofText w.files uri <;> exact .pure _

theorem reportsIn_locate (d : DiscoveredKeys) (header : KeyHeader) :
    (d.locate header).ReportsIn areas := by
  refine .bind ?_ fun found => ?_
  · unfold findKeySet
    cases d.keySet with
    | some keySet => exact .pure _
    | none =>
      refine .bind reportsIn_surroundings fun w => ?_
      cases d.refusedFor? w.instant with
      | some rest => exact .pure _
      | none => exact reportsIn_discover hdiscovery d
  · obtain ⟨_ | keySet, d'⟩ := found
    · exact .pure _
    · exact .bind (keySet.reportsIn_locate header) fun _ => .pure _

end DiscoveredKeys

namespace LoadBalancerKeys

theorem reportsIn_fetch (region id : String) : (fetch region id).ReportsIn areas := by
  refine .bind (reportsIn_keyAddress region id) fun address => ?_
  cases address with
  | error e => exact .pure _
  | ok url =>
    refine .bind (reportsIn_fetchKeys url) fun pem => ?_
    cases pem with
    | error e => exact .pure _
    | ok pem =>
      dsimp only
      cases PemKey.material .ec (Text.Utf8.encode pem) <;> exact .pure _

theorem reportsIn_locate (l : LoadBalancerKeys) (header : KeyHeader) :
    (l.locate header).ReportsIn areas := by
  unfold locate
  cases header.requireKeyId with
  | error e => exact .pure _
  | ok id =>
    dsimp only
    split
    · exact .pure _
    · rcases l.known.get id with ⟨_ | key, known⟩
      · refine .bind (reportsIn_fetch l.region id) fun fetched => ?_
        cases fetched <;> exact .pure _
      · exact .pure _

end LoadBalancerKeys

variable (hdiscovery : areas .discovery)
include hdiscovery

/-- The search for a key reports nothing but the discovery of key sets. -/
theorem KeyLocator.reportsIn_locate (l : KeyLocator) (header : KeyHeader) :
    (l.locate header).ReportsIn areas := by
  cases l with
  | direct key => exact .pure _
  | published location => exact .bind (KeySet.reportsIn_locate location header) fun _ => .pure _
  | cached keySet => exact .bind (keySet.reportsIn_locate header) fun _ => .pure _
  | discovered keys => exact .bind (keys.reportsIn_locate hdiscovery header) fun _ => .pure _
  | loadBalancer keys => exact .bind (keys.reportsIn_locate header) fun _ => .pure _
  | custom name asked answer => exact .pure _

theorem SignedVerifier.reportsIn_verify (v : SignedVerifier) (raw : String) :
    (v.verify raw).ReportsIn areas := by
  unfold verify
  cases ParsedToken.parse v.allowPadding raw with
  | error e => exact .pure _
  | ok token =>
    refine .bind (v.locator.reportsIn_locate hdiscovery token.header) fun found => ?_
    obtain ⟨_ | key, locator⟩ := found
    · exact .pure _
    · exact .bind reportsIn_surroundings fun _ => .pure _

theorem Verifier.reportsIn_verify (v : Verifier) (raw : String) :
    (v.verify raw).ReportsIn areas := by
  cases v with
  | signed v => exact .bind (v.reportsIn_verify hdiscovery raw) fun _ => .pure _
  | custom name asked answer => exact .pure _

namespace Engine

theorem reportsIn_verifyAll (v : Verifier) (candidates : List TokenCandidate) :
    (verifyAll v candidates).ReportsIn areas := by
  -- a candidate leaves another verifier behind, so this is about all of them
  induction candidates generalizing v with
  | nil => exact .pure _
  | cons c rest ih =>
    unfold verifyAll
    cases c.token? with
    | none => exact .bind (ih v) fun _ => .pure _
    | some token =>
      refine .bind (v.reportsIn_verify hdiscovery token) fun result => ?_
      obtain ⟨verdict, v'⟩ := result
      cases verdict with
      | panic p => exact .pure _
      | ok claims => exact .bind (ih v') fun _ => .pure _
      | error error => exact .bind (ih v') fun _ => .pure _

variable (hengine : areas .engine)
include hengine

omit hdiscovery in
theorem reportsIn_settle (e : Engine) (r : Request) (tokens : List VerifiedToken)
    (challenges : List Challenge) : (e.settle r tokens challenges).ReportsIn areas := by
  unfold settle
  cases e.winner? tokens with
  | none => exact .bind (.forM (fun _ => .report hengine) _) fun _ => .pure _
  | some won => exact .bind (.say _ _ hengine) fun _ => .pure _

/-- The authentication of a request reports of the engine and of the discovery of keys alone. -/
theorem reportsIn_authenticate (e : Engine) (r : Request) (v : Verifier) :
    (e.authenticate r v).ReportsIn areas := by
  have hattempt : (e.attempt r v).ReportsIn areas := by
    unfold attempt
    rcases e.hasRequiredParameters r with ⟨_ | _, looks⟩ | x | p
    · exact .pure _
    · dsimp only
      rcases e.candidates r looks with (_ | ⟨c, rest⟩) | x | p
      · exact .pure _
      · -- only here are keys looked for
        refine .bind (reportsIn_verifyAll hdiscovery v (c :: rest)) fun result => ?_
        rcases result with ⟨⟨tokens, challenges⟩ | x | p, v'⟩
        · exact .bind (reportsIn_settle hengine e r tokens challenges) fun _ => .pure _
        · exact nomatch x
        · exact .pure _
      · exact nomatch x
      · exact .pure _
    · exact nomatch x
    · exact .pure _
  refine .bind hattempt fun result => ?_
  obtain ⟨answer, v'⟩ := result
  dsimp only
  split
  · refine .bind ?_ fun _ => .pure _
    unfold trap
    cases answer.outcome with
    | ok user => exact .pure _
    | error reason => exact .bind (.report hengine) fun _ => .pure _
    | panic p => exact .bind (.report hengine) fun _ => .pure _
  · exact .pure _

end Engine

end BearerAuth

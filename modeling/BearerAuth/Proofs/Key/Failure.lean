import Mathlib.Tactic.Common
import BearerAuth.Key.Locator
import BearerAuth.Proofs.Outcome

namespace BearerAuth

open Outcome

/-- A search that calls no key weak. -/
def NeverWeak {α : Type} (found : Except KeyError α) : Prop :=
  FailsIn (fun e => ∀ bits required, e ≠ .weakKey bits required) found

theorem KeyHeader.neverWeak_requireKeyId (h : KeyHeader) : NeverWeak h.requireKeyId := by
  unfold requireKeyId
  split
  · exact .ok _
  · exact .error nofun

theorem Run.neverWeak_fetchKeys (url : String) (w : Surroundings) (s : ProcessState) :
    NeverWeak (Run.fetchKeys url w s).1 :=
  .mapError (fun _ => nofun) _

theorem KeySetLocation.neverWeak_ofText (files : FileSystem) (text : String) :
    NeverWeak (KeySetLocation.ofText files text) := by
  unfold ofText
  dsimp only
  repeat' split
  all_goals first | exact .ok _ | exact .error nofun

namespace KeySet

theorem neverWeak_ofDocument (uri document : String) : NeverWeak (ofDocument uri document) := by
  unfold ofDocument
  refine .bind (.mapError (fun _ => nofun) _) fun v => ?_
  split
  · exact .ok _
  · exact .error nofun

theorem neverWeak_readDocument (location : KeySetLocation) (w : Surroundings) (s : ProcessState) :
    NeverWeak (readDocument location w s).1 := by
  cases location with
  | network url => exact Run.neverWeak_fetchKeys url.text w s
  | file path => exact .mapError (fun _ => nofun) _

theorem neverWeak_load (location : KeySetLocation) (w : Surroundings) (s : ProcessState) :
    NeverWeak (load location w s).1 :=
  .bind (neverWeak_readDocument location w s) (neverWeak_ofDocument location.text)

theorem neverWeak_locate (location : KeySetLocation) (header : KeyHeader) (w : Surroundings)
    (s : ProcessState) : NeverWeak (locate location header w s).1 := by
  unfold locate
  cases he : header.requireKeyId with
  | error e => exact .error (header.neverWeak_requireKeyId e he)
  | ok id =>
    simp only [Run.bind_apply]
    cases hload : (load location w s).1 with
    | error e => exact .error (neverWeak_load location w s e hload)
    | ok keys =>
      dsimp only
      cases keys.lookup id with
      | some key => exact .ok key
      | none => exact .error nofun

end KeySet

namespace CachedKeySet

theorem neverWeak_reload (c : CachedKeySet) (id : String) (w : Surroundings) (s : ProcessState) :
    NeverWeak (c.reload id w s).1.1 := by
  unfold reload
  simp only [Run.bind_apply]
  cases hload : (KeySet.load c.location w s).1 with
  | error e => exact .error (KeySet.neverWeak_load c.location w s e hload)
  | ok keys =>
    simp only [Run.bind_apply]
    cases lastOf keys id with
    | some key => exact .ok key
    | none => exact .error nofun

theorem neverWeak_locate (c : CachedKeySet) (header : KeyHeader) (w : Surroundings)
    (s : ProcessState) : NeverWeak (c.locate header w s).1.1 := by
  unfold locate
  cases he : header.requireKeyId with
  | error e => exact .error (header.neverWeak_requireKeyId e he)
  | ok id =>
    simp only [Run.bind_apply]
    rcases c.find (Run.surroundings w s).1.instant id with ⟨_ | key, c'⟩
    · exact c'.neverWeak_reload id w s
    · exact .ok key

end CachedKeySet

namespace DiscoveredKeys

theorem neverWeak_discover (d : DiscoveredKeys) (w : Surroundings) (s : ProcessState) :
    NeverWeak (d.discover w s).1.1 := by
  unfold discover
  simp only [Run.bind_apply]
  cases (keySetAddress d.address w (Run.surroundings w s).2).1 with
  | error e => exact .error nofun
  | ok uri =>
    simp only [Run.bind_apply]
    cases hlocation : KeySetLocation.ofText (Run.surroundings w s).1.files uri with
    | error e => exact .error (KeySetLocation.neverWeak_ofText _ uri e hlocation)
    | ok location => exact .ok _

theorem neverWeak_findKeySet (d : DiscoveredKeys) (w : Surroundings) (s : ProcessState) :
    NeverWeak (d.findKeySet w s).1.1 := by
  unfold findKeySet
  cases d.keySet with
  | some keySet => exact .ok keySet
  | none =>
    simp only [Run.bind_apply]
    cases d.refusedFor? (Run.surroundings w s).1.instant with
    | some rest => exact .error nofun
    | none => exact d.neverWeak_discover w s

theorem neverWeak_locate (d : DiscoveredKeys) (header : KeyHeader) (w : Surroundings)
    (s : ProcessState) : NeverWeak (d.locate header w s).1.1 := by
  have hfind := d.neverWeak_findKeySet w s
  unfold locate
  simp only [Run.bind_apply]
  rcases hfound : d.findKeySet w s with ⟨⟨e | keySet, d'⟩, s'⟩
  · rw [hfound] at hfind
    exact .error (hfind e rfl)
  · exact keySet.neverWeak_locate header w s'

end DiscoveredKeys

namespace LoadBalancerKeys

theorem neverWeak_keyAddress (region id : String) (w : Surroundings) (s : ProcessState) :
    NeverWeak (Run.keyAddress region id w s).1 := by
  unfold Run.keyAddress KeyAddressFormats.address
  dsimp only
  split
  · exact .error nofun
  · exact .ok _
  · exact .ok _
  · exact .error nofun

theorem neverWeak_fetch (region id : String) (w : Surroundings) (s : ProcessState) :
    NeverWeak (fetch region id w s).1 := by
  unfold fetch
  simp only [Run.bind_apply]
  cases haddress : (Run.keyAddress region id w s).1 with
  | error e => exact .error (neverWeak_keyAddress region id w s e haddress)
  | ok url =>
    simp only [Run.bind_apply]
    cases (Run.fetchKeys url w (Run.keyAddress region id w s).2).1 with
    | error e => exact .error nofun
    | ok pem =>
      dsimp only
      cases PemKey.material .ec (Text.Utf8.encode pem) with
      | error e => exact .error nofun
      | ok key => exact .ok key

theorem neverWeak_locate (l : LoadBalancerKeys) (header : KeyHeader) (w : Surroundings)
    (s : ProcessState) : NeverWeak (l.locate header w s).1.1 := by
  unfold locate
  cases he : header.requireKeyId with
  | error e => exact .error (header.neverWeak_requireKeyId e he)
  | ok id =>
    dsimp only
    split
    · exact .error nofun
    · rcases l.known.get id with ⟨_ | key, known⟩
      · simp only [Run.bind_apply]
        cases hfetch : (fetch l.region id w s).1 with
        | error e => exact .error (neverWeak_fetch l.region id w s e hfetch)
        | ok key => exact .ok key
      · exact .ok key

end LoadBalancerKeys

/-- The holder of a key gives it out unless it is a secret with fewer bits than the algorithm of the
header asks for. -/
theorem DirectKey.locate_eq_ok_iff (key : DirectKey) (header : KeyHeader) (found : KeyMaterial) :
    key.locate header = .ok found ↔ found = key.material ∧
      ∀ secret required, key = .secret secret →
        header.algorithm.requiredSecretBits? = some required → required ≤ secret.length * 8 := by
  cases key with
  | pem kind material fingerprint => simp [locate, bits?, DirectKey.material, eq_comm]
  | secret secret =>
    cases hrequired : header.algorithm.requiredSecretBits? with
    | none => simp [locate, bits?, hrequired, material, eq_comm]
    | some least =>
      by_cases hshort : secret.length * 8 < least
      · simp [locate, bits?, hrequired, hshort]
      · simp [locate, bits?, hrequired, hshort, material, eq_comm, Nat.not_lt.mp hshort]

/-- The holder of a key calls it weak exactly when it is a secret with fewer bits than the algorithm
of the header asks for. -/
theorem DirectKey.locate_eq_weakKey_iff (key : DirectKey) (header : KeyHeader)
    (bits required : Nat) :
    key.locate header = .error (.weakKey bits required) ↔
      ∃ secret, key = .secret secret ∧ bits = secret.length * 8 ∧
        header.algorithm.requiredSecretBits? = some required ∧ bits < required := by
  cases key with
  | pem kind material fingerprint => simp [locate, bits?]
  | secret secret =>
    cases hrequired : header.algorithm.requiredSecretBits? with
    | none => simp [locate, bits?, hrequired]
    | some least =>
      simp only [locate, bits?, hrequired]
      split
      · next hshort =>
        simp only [Except.error.injEq, KeyError.weakKey.injEq, Option.some.injEq,
          DirectKey.secret.injEq]
        constructor
        · rintro ⟨rfl, rfl⟩
          exact ⟨secret, rfl, rfl, rfl, hshort⟩
        · rintro ⟨_, rfl, rfl, rfl, -⟩
          exact ⟨rfl, rfl⟩
      · next hlong =>
        constructor
        · exact nofun
        · rintro ⟨_, ⟨⟩, rfl, ⟨⟩, hshort⟩
          exact absurd hshort hlong

/-- A search of the library's own calls a key weak exactly when the key is a secret that is held
directly and has fewer bits than the algorithm of the header asks for. -/
theorem KeyLocator.locate_eq_weakKey_iff (l : KeyLocator)
    (hown : ∀ name asked answer, l ≠ .custom name asked answer) (header : KeyHeader)
    (w : Surroundings) (s : ProcessState) (bits required : Nat) :
    (l.locate header w s).1.1 = .error (.weakKey bits required) ↔
      ∃ secret, l = .direct (.secret secret) ∧ bits = secret.length * 8 ∧
        header.algorithm.requiredSecretBits? = some required ∧ bits < required := by
  have hnever {found : Except KeyError KeyMaterial} (h : NeverWeak found) :
      found ≠ .error (.weakKey bits required) := fun he => h _ he bits required rfl
  cases l with
  | direct key =>
    rw [show ((KeyLocator.direct key).locate header w s).1.1 = key.locate header from rfl,
      DirectKey.locate_eq_weakKey_iff]
    simp only [KeyLocator.direct.injEq]
  -- the length of a published secret is not looked at
  | published location =>
    exact iff_of_false (hnever (KeySet.neverWeak_locate location header w s)) (by simp)
  | cached keySet => exact iff_of_false (hnever (keySet.neverWeak_locate header w s)) (by simp)
  | discovered keys => exact iff_of_false (hnever (keys.neverWeak_locate header w s)) (by simp)
  | loadBalancer keys => exact iff_of_false (hnever (keys.neverWeak_locate header w s)) (by simp)
  | custom name asked answer => exact absurd rfl (hown name asked answer)

end BearerAuth

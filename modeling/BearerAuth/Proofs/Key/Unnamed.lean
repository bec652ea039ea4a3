import BearerAuth.Key.Locator
import BearerAuth.Proofs.Key.Discovery.Attempt

namespace BearerAuth

variable {header : KeyHeader} {e : KeyError} {w : Surroundings} {s : ProcessState}

theorem KeyHeader.requireKeyId_cases (h : KeyHeader) :
    (∃ id, h.keyId = some id ∧ Text.isBlank id = false) ∨
      h.requireKeyId = .error .missingKeyId := by
  unfold requireKeyId
  cases hkeyId : h.keyId with
  | none => exact Or.inr rfl
  | some id =>
    cases hblank : Text.isBlank id with
    | false => exact Or.inl ⟨id, rfl, hblank⟩
    | true =>
      have hnone : Text.nonBlank? id = none := if_pos hblank
      refine Or.inr ?_
      simp only [Option.bind_some, hnone]

theorem KeyHeader.eq_missingKeyId (h : header.requireKeyId = .error e) : e = .missingKeyId := by
  unfold requireKeyId at h
  cases hid : header.keyId.bind Text.nonBlank? with
  | none =>
    rw [hid] at h
    exact (Except.error.inj h).symm
  | some id =>
    rw [hid] at h
    exact nomatch h

theorem CachedKeySet.locate_of_unnamed (keySet : CachedKeySet)
    (hid : header.requireKeyId = .error e) (w : Surroundings) (s : ProcessState) :
    keySet.locate header w s = ((.error e, keySet), s) := by
  unfold locate
  rw [hid]
  rfl

namespace DiscoveredKeys

variable {d : DiscoveredKeys}

/-- What can go wrong in an attempt is never that a token names no key. -/
theorem sought_ne_missingKeyId (d : DiscoveredKeys) (w : Surroundings) (s : ProcessState) :
    d.sought w s ≠ .error .missingKeyId := by
  have hlocation (uri : String) : KeySetLocation.ofText w.files uri ≠ .error .missingKeyId := by
    unfold KeySetLocation.ofText
    dsimp only
    repeat' split
    all_goals exact nofun
  unfold sought
  cases (consulted d.address w s).bind (advertised d.address) with
  | error e => exact nofun
  | ok uri =>
    dsimp only
    cases hfound : KeySetLocation.ofText w.files uri with
    | error e =>
      intro h
      exact hlocation uri (hfound.trans (congrArg Except.error (Except.error.inj h)))
    | ok location => exact nofun

/-- A permitted attempt is made for any token, also for one that names no key. -/
theorem locate_of_unnamed (hunknown : d.keySet = none)
    (hpermitted : d.refusedFor? w.instant = none) (hid : header.requireKeyId = .error e) :
    d.locate header w s =
      (((d.sought w s).bind fun _ => .error e,
        { d with attempted := some w.instant, keySet := (d.sought w s).toOption }),
        (d.discover w s).2) := by
  cases hsought : d.sought w s with
  | error reason =>
    rw [locate_of_failed hunknown hpermitted hsought]
    change _ = ((_, { d with attempted := some w.instant, keySet := none }), _)
    rw [← hunknown]
    rfl
  | ok keySet =>
    rw [locate_of_found hunknown hpermitted hsought, locate_of_known rfl,
      CachedKeySet.locate_of_unnamed keySet hid]
    rfl

end DiscoveredKeys

namespace KeyLocator

/-- The keys are published somewhere, and the library has to fetch them. -/
def Fetches : KeyLocator → Prop
  | .direct _ | .custom .. => False
  | _ => True

/-- Where the keys are published is known. -/
def IsSettled (l : KeyLocator) : Prop := ∀ d, l = .discovered d → d.keySet ≠ none

/-- Where keys are published is known, or it is the provider that has still to be asked. -/
theorem isSettled_or (l : KeyLocator) :
    l.IsSettled ∨ ∃ d, l = .discovered d ∧ d.keySet = none := by
  by_cases h : l.IsSettled
  · exact Or.inl h
  · unfold IsSettled at h
    push Not at h
    exact Or.inr h

/-- Where it is known where the keys are published, a token that names none is refused, and nothing
else happens. -/
theorem locate_of_unnamed {l : KeyLocator} (hfetches : l.Fetches) (hsettled : l.IsSettled)
    (hid : header.requireKeyId = .error e) (w : Surroundings) (s : ProcessState) :
    l.locate header w s = ((.error e, l), s) := by
  cases l with
  | direct key => exact hfetches.elim
  | published location =>
    have hlookUp : KeySet.locate location header w s = (.error e, s) := by
      unfold KeySet.locate
      rw [hid]
      rfl
    unfold locate
    simp only [Run.bind_apply, hlookUp, Run.pure_apply]
  | cached keySet =>
    have hlookUp := CachedKeySet.locate_of_unnamed keySet hid w s
    unfold locate
    simp only [Run.bind_apply, hlookUp, Run.pure_apply]
  | discovered d =>
    obtain ⟨keySet, hkeySet⟩ := Option.ne_none_iff_exists'.mp (hsettled d rfl)
    have hlocate : d.locate header w s = ((.error e, d), s) := by
      rw [DiscoveredKeys.locate_of_known hkeySet, CachedKeySet.locate_of_unnamed keySet hid,
        ← hkeySet]
    unfold locate
    simp only [Run.bind_apply, hlocate, Run.pure_apply]
  | loadBalancer keys =>
    have hlookUp : keys.locate header w s = ((.error e, keys), s) := by
      unfold LoadBalancerKeys.locate
      rw [hid]
      rfl
    unfold locate
    simp only [Run.bind_apply, hlookUp, Run.pure_apply]
  | custom name asked answer => exact hfetches.elim

end KeyLocator

end BearerAuth

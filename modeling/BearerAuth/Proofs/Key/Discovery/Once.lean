import Mathlib
import BearerAuth.Proofs.Key.Discovery.Attempt

namespace BearerAuth.DiscoveredKeys

theorem refusedFor?_of_fresh {d : DiscoveredKeys} (h : d.attempted = none) (instant : Duration) :
    d.refusedFor? instant = none := by
  unfold refusedFor?
  rw [h]
  rfl

theorem refusedFor?_of_attempted {d : DiscoveredKeys} {last instant : Duration}
    (h : d.attempted = some last) (hsoon : instant - last < d.retryInterval) :
    d.refusedFor? instant = some (d.retryInterval - (instant - last)) := by
  unfold refusedFor?
  rw [h]
  exact if_pos hsoon

/-- Questions to a provider whose key set is known are look-ups in the key set. -/
theorem dialogue_of_known {d : DiscoveredKeys} {keySet : CachedKeySet} (h : d.keySet = some keySet)
    (moments : List (Surroundings × KeyHeader)) (s : ProcessState) :
    Run.dialogue locate d moments s =
      (((Run.dialogue CachedKeySet.locate keySet moments s).1.1,
        { d with keySet := some (Run.dialogue CachedKeySet.locate keySet moments s).1.2 }),
        (Run.dialogue CachedKeySet.locate keySet moments s).2) := by
  induction moments generalizing d keySet s with
  | nil =>
    have hsame : { d with keySet := some keySet } = d := by rw [← h]
    simp only [Run.dialogue, hsame]
  | cons moment moments ih =>
    obtain ⟨w, header⟩ := moment
    -- what the provider is left with after the first look-up is again known
    let next : DiscoveredKeys := { d with keySet := some (keySet.locate header w s).1.2 }
    have hnext : next.keySet = some (keySet.locate header w s).1.2 := rfl
    have hlater := ih hnext (keySet.locate header w s).2
    simp only [Run.dialogue, locate_of_known h, next] at hlater ⊢
    rw [hlater]

/-- Questions that all come too early are all refused, and nothing changes. -/
theorem dialogue_of_refused {d : DiscoveredKeys} {last : Duration} (hunknown : d.keySet = none)
    (hattempted : d.attempted = some last) {moments : List (Surroundings × KeyHeader)}
    (hsoon : ∀ moment ∈ moments, moment.1.instant - last < d.retryInterval) (s : ProcessState) :
    Run.dialogue locate d moments s =
      ((moments.map fun moment =>
        .error (refusal (d.retryInterval - (moment.1.instant - last))), d), s) := by
  induction moments with
  | nil => rfl
  | cons moment moments ih =>
    obtain ⟨w, header⟩ := moment
    obtain ⟨hfirst, hlater⟩ := List.forall_mem_cons.mp hsoon
    have hrefused := refusedFor?_of_attempted hattempted hfirst
    simp only [Run.dialogue, locate_of_refused hunknown hrefused, List.map_cons]
    rw [ih hlater]

/-- An attempt asks for nothing but the document of the provider, once at most. -/
theorem asked_cases (address : String) (w : Surroundings) (s : ProcessState) :
    asked address w s = [] ∨ IsFetchOf address (asked address w s) := by
  unfold asked
  cases (s.providers.find w.instant address).1 with
  | some configuration => exact Or.inl rfl
  | none => exact exchangesFor_cases w address

/-- An address is asked for once at most, if what was redirected to it is not counted. -/
def IsRequestedOnce (exchanges : List Exchange) (target : String) : Prop :=
  exchanges.countP (fun exchange => exchange.url == target) ≤
    1 + exchanges.countP fun exchange => exchange.next? == some target

/-- An address at which no load begins is asked for by loads only where they are redirected. -/
theorem countP_url_flatten_le {location : KeySetLocation} {loads : List (List Exchange)}
    {target : String} (hloads : ∀ load ∈ loads, location.IsFetch load)
    (hother : ∀ load ∈ loads, ∀ first ∈ load.head?, first.url ≠ target) :
    loads.flatten.countP (fun exchange => exchange.url == target) ≤
      loads.flatten.countP fun exchange => exchange.next? == some target := by
  induction loads with
  | nil => exact Nat.le_refl 0
  | cons load loads ih =>
    obtain ⟨⟨url, -, hfetch⟩, hloads⟩ := List.forall_mem_cons.mp hloads
    obtain ⟨hfirst, hother⟩ := List.forall_mem_cons.mp hother
    have hbegins : (load.head?.toList.countP fun exchange => exchange.url == target) = 0 := by
      rw [List.countP_eq_zero]
      intro exchange hexchange heq
      exact hfirst exchange (Option.mem_toList.mp hexchange) (beq_iff_eq.mp heq)
    have hload := countP_url_le_of_isChain hfetch.follows target
    have hrest := ih hloads hother
    rw [List.flatten_cons, List.countP_append, List.countP_append]
    omega

/-- One fetch and any number of loads that begin elsewhere ask for an address once at most. -/
theorem isRequestedOnce_of_fetches {address target : String} {asked : List Exchange}
    {loads : List (List Exchange)} (hasked : asked = [] ∨ IsFetchOf address asked)
    (hloads : loads.flatten.countP (fun exchange => exchange.url == target) ≤
      loads.flatten.countP fun exchange => exchange.next? == some target) :
    IsRequestedOnce (asked ++ loads.flatten) target := by
  have hfirst : asked.countP (fun exchange => exchange.url == target) ≤
      1 + asked.countP fun exchange => exchange.next? == some target := by
    rcases hasked with rfl | hfetch
    · exact Nat.zero_le _
    · have hchain := countP_url_le_of_isChain hfetch.follows target
      have hone : (asked.head?.toList.countP fun exchange => exchange.url == target) ≤ 1 :=
        List.countP_le_length.trans Option.length_toList_le
      omega
  unfold IsRequestedOnce
  rw [List.countP_append, List.countP_append]
  omega

/-- While the retry interval of a provider lasts, whatever is known of it at first and whatever the
network serves meanwhile, one attempt is made to find its key set, which fetches the document of the
provider once at most. If it fails, every later question is refused and changes nothing. If it
succeeds, all questions are look-ups in the key set at the location that was found then, and nothing
else is fetched. No address is asked for twice but for loads of the key set and for redirects. -/
theorem discovers_once (address : String) (retryInterval cacheLifetime : Duration)
    (w : Surroundings) (header : KeyHeader) (later : List (Surroundings × KeyHeader))
    (houtlasts : ∀ moment ∈ later, moment.1.instant - w.instant < retryInterval)
    (s : ProcessState) :
    let start : DiscoveredKeys := { address, retryInterval, cacheLifetime }
    let run := Run.dialogue locate start ((w, header) :: later) s
    let attempt := start.discover w s
    ∃ (asked : List Exchange) (loads : List (List Exchange)),
      attempt.2.exchanges = s.exchanges ++ asked ∧
      run.2.exchanges = s.exchanges ++ asked ++ loads.flatten ∧
      (asked = [] ∨ IsFetchOf address asked) ∧
      (∀ target, (∀ load ∈ loads, ∀ first ∈ load.head?, first.url ≠ target) →
        IsRequestedOnce (asked ++ loads.flatten) target) ∧
      ((∃ e, attempt.1.1 = .error e ∧ loads = [] ∧
          run = ((.error e :: later.map fun moment =>
            .error (refusal (retryInterval - (moment.1.instant - w.instant))),
            { start with attempted := some w.instant }), attempt.2)) ∨
        ∃ uri location, (keySetAddress address w s).1 = .ok uri ∧
          KeySetLocation.ofText w.files uri = .ok location ∧
          (∀ load ∈ loads, location.IsFetch load) ∧
          let keySet : CachedKeySet := { location, lifetime := cacheLifetime }
          let lookups := Run.dialogue CachedKeySet.locate keySet ((w, header) :: later) attempt.2
          run = ((lookups.1.1,
            { start with attempted := some w.instant, keySet := some lookups.1.2 }),
            lookups.2)) := by
  intro start run attempt
  have hunknown : start.keySet = none := rfl
  have hpermitted : start.refusedFor? w.instant = none := refusedFor?_of_fresh rfl w.instant
  obtain ⟨hoffer, hasked, -⟩ := start.discover_apply w s
  have hfetch := asked_cases address w s
  cases hsought : start.sought w s with
  | error e =>
    -- the attempt is remembered, and refuses all that comes later
    let failed : DiscoveredKeys := { start with attempted := some w.instant }
    have hfirst := locate_of_failed hunknown hpermitted hsought header
    have hlater := dialogue_of_refused (d := failed) rfl rfl houtlasts attempt.2
    have hrun : run = ((.error e :: later.map fun moment =>
        .error (refusal (retryInterval - (moment.1.instant - w.instant))), failed), attempt.2) := by
      change Run.dialogue locate start ((w, header) :: later) s = _
      simp only [Run.dialogue, hfirst]
      rw [hlater]
    refine ⟨asked address w s, [], hasked, ?_, hfetch, ?_, Or.inl ⟨e, ?_, rfl, hrun⟩⟩
    · rw [hrun, List.flatten_nil, List.append_nil]
      exact hasked
    · exact fun target _ => isRequestedOnce_of_fetches hfetch (Nat.le_refl 0)
    · rw [hoffer]
      exact hsought
  | ok keySet =>
    obtain ⟨configuration, uri, location, hconsulted, hadvertised, hlocation, rfl⟩ :=
      (sought_eq_ok_iff start w s keySet).mp hsought
    have huri : (keySetAddress address w s).1 = .ok uri := by
      rw [keySetAddress_apply]
      dsimp only
      rw [hconsulted]
      exact hadvertised
    let keySet : CachedKeySet := { location, lifetime := cacheLifetime }
    let found : DiscoveredKeys :=
      { start with attempted := some w.instant, keySet := some keySet }
    have hfirst := locate_of_found hunknown hpermitted hsought header
    -- the first question too is asked of the key set that was found
    have hrun : run = Run.dialogue locate found ((w, header) :: later) attempt.2 := by
      change Run.dialogue locate start ((w, header) :: later) s = _
      simp only [Run.dialogue, hfirst]
      rfl
    have hknown : found.keySet = some keySet := rfl
    rw [dialogue_of_known hknown] at hrun
    obtain ⟨loads, hloads, hplace⟩ :=
      CachedKeySet.fetches_dialogue keySet ((w, header) :: later) attempt.2
    refine ⟨asked address w s, loads, hasked, ?_, hfetch, ?_,
      Or.inr ⟨uri, location, huri, hlocation, hplace, hrun⟩⟩
    · rw [hrun, ← hasked]
      exact hloads
    · intro target hother
      exact isRequestedOnce_of_fetches hfetch (countP_url_flatten_le hplace hother)

/-- A provider that cannot be reached at first is asked once; that it answers an instant before the
next attempt is permitted changes nothing. -/
theorem discovers_once_silent :
    let start : DiscoveredKeys := { address := providerAddress, retryInterval := 30 }
    let silent : Surroundings := { announced 0 "" with network := fun _ => .unreachable }
    let later := [(announced 29 "", ⟨some "a", .hs256⟩)]
    let run := Run.dialogue locate start ((silent, ⟨some "a", .hs256⟩) :: later) {}
    (∀ moment ∈ later, moment.1.instant - silent.instant < 30) ∧
      IsRequestedOnce run.2.exchanges providerAddress ∧
      ∃ e, run.1.1 = [.error e, .error (refusal 1)] := by
  intro start silent later run
  have houtlasts : ∀ moment ∈ later, moment.1.instant - silent.instant < 30 := by
    intro moment hmoment
    rw [List.mem_singleton.mp hmoment]
    decide
  refine ⟨houtlasts, ?_⟩
  obtain ⟨asked, loads, -, hrequests, -, honce, ⟨e, -, rfl, hrun⟩ | ⟨uri, -, huri, -⟩⟩ :=
    discovers_once providerAddress 30 (Duration.ofMinutes 60) silent ⟨some "a", .hs256⟩ later
      houtlasts {}
  · have hend : run = _ := hrun
    have hnothing : ({} : ProcessState).exchanges = [] := rfl
    rw [hnothing, List.nil_append] at hrequests
    refine ⟨?_, e, ?_⟩
    · rw [show run.2.exchanges = _ from hrequests]
      exact honce providerAddress nofun
    · rw [hend]
      rfl
  · -- nothing is known of the provider, and nothing can be had from it
    obtain ⟨e, he⟩ : ∃ e, described silent providerAddress = .error e :=
      described_of_unreachable rfl
    rw [keySetAddress_apply, (consulted_of_unknown rfl).1, he] at huri
    exact nomatch huri

/-- A document that says that it is itself the key set of its provider. -/
def reflexiveText : String :=
  "\x7b\"jwks_uri\":\"http://idp.example/.well-known/openid-configuration\",\"keys\":[]\x7d"

/-- What is sought by it is at the address of the provider. -/
theorem sought_reflexive :
    sought { address := providerAddress } (announced 0 reflexiveText) {} =
      .ok { location := .network providerUrl } := by
  let reflexive : ProviderConfiguration :=
    ⟨none, some providerAddress, none, [("keys", .array [])]⟩
  have hconfiguration : ProviderConfiguration.ofText {} reflexiveText = .ok reflexive := by
    cbv
  have huri : reflexive.jwksUri.bind Text.nonBlank? = some providerAddress := by decide
  have hlocation :
      KeySetLocation.ofText (announced 0 reflexiveText).files providerAddress =
        .ok (.network providerUrl) := by
    have htrimmed : Text.trim providerAddress = providerAddress := by decide
    unfold KeySetLocation.ofText
    rw [htrimmed]
    dsimp only
    rw [canonical_providerAddress.1]
    exact if_pos schemeName_providerUrl
  have hdescribed : described (announced 0 reflexiveText) providerAddress = .ok reflexive :=
    described_of_served rfl hconfiguration
  exact (sought_eq_ok_iff ..).mpr ⟨reflexive, providerAddress, .network providerUrl,
    (consulted_of_unknown rfl).1.trans hdescribed, (advertised_eq_ok_iff ..).mpr huri, hlocation,
    rfl⟩

theorem requests_reflexive :
    (Run.dialogue locate { address := providerAddress }
      [(announced 0 reflexiveText, ⟨some "a", .hs256⟩)] {}).2.exchanges.map (·.url) =
        [providerAddress, providerAddress] := by
  have hid : KeyHeader.requireKeyId ⟨some "a", .hs256⟩ = .ok "a" := by decide
  have hone : (announced 0 reflexiveText).exchangesFor providerAddress =
      [⟨providerAddress, .answer 200 reflexiveText⟩] :=
    exchangesFor_of_final fetchAddress_providerAddress fun _ => nofun
  have hasked : asked providerAddress (announced 0 reflexiveText) {} =
      (announced 0 reflexiveText).exchangesFor providerAddress :=
    (consulted_of_unknown rfl).2
  have hkeys : (KeySetLocation.network providerUrl).exchangesFor (announced 0 reflexiveText) =
      (announced 0 reflexiveText).exchangesFor providerAddress := by
    rw [← canonical_providerAddress.2]
    rfl
  -- the attempt asks for the document, and so does the look-up that follows
  have hexchanges := (locate_of_located rfl rfl sought_reflexive hid).2
  rw [hasked, hkeys, hone] at hexchanges
  have hnothing : ({} : ProcessState).exchanges = [] := rfl
  rw [Run.snd_dialogue_singleton, hexchanges, hnothing, List.nil_append]
  rfl

/-- A moment at which the network has nothing, but redirects from the address of the provider. -/
def redirecting : Surroundings :=
  let elsewhere : Url := { providerUrl with path := .segments ["a".toList] }
  { announced 0 "" with network := fun address =>
      if address = providerAddress then .redirect elsewhere else .unreachable }

/-- If a provider says that its keys are in the document in which it says so, that document is
asked for twice, however long the retry interval is. If the provider redirects to another address,
that is asked for, too. -/
theorem discovers_beyond :
    (Run.dialogue locate { address := providerAddress }
      [(announced 0 reflexiveText, ⟨some "a", .hs256⟩)] {}).2.exchanges.map (·.url) =
        [providerAddress, providerAddress] ∧
    (Run.dialogue locate { address := providerAddress }
      [(redirecting, ⟨some "a", .hs256⟩)] {}).2.exchanges.map (·.url) =
        [providerAddress, "http://idp.example/a"] := by
  refine ⟨requests_reflexive, ?_⟩
  decide +kernel

end BearerAuth.DiscoveredKeys

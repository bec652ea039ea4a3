import BearerAuth.Proofs.Key.Discovery.Once

/-! A provider that may be asked again at once. Failed attempts leave nothing behind that stands in
the way of the next one, except for what the registry remembers: a configuration that led to no key
set is consulted again, in place of the provider, for as long as it is remembered. -/

namespace BearerAuth

/-- A configuration is found if it is not too old, and stays as old as it is. Otherwise nothing is
known of the address afterwards. -/
theorem ProviderRegistry.find_cases (r : ProviderRegistry) (instant : Duration) (address : String) :
    (∃ configuration known, r.peek? address = some (configuration, known) ∧
      instant - known < lifetime ∧ (r.find instant address).1 = some configuration ∧
      (r.find instant address).2.peek? address = some (configuration, known)) ∨
    ((∀ configuration known, r.peek? address = some (configuration, known) →
        lifetime ≤ instant - known) ∧
      (r.find instant address).1 = none ∧
      (r.find instant address).2.peek? address = none) := by
  have hsame : (r.get address).2.peek? address = r.peek? address := r.peek?_get address address
  unfold find
  cases hpeek : r.peek? address with
  | none =>
    have hget : r.get address = (none, r) := RecencyMap.get_of_peek?_eq_none r hpeek
    rw [hget]
    exact Or.inr ⟨nofun, rfl, hpeek⟩
  | some entry =>
    obtain ⟨configuration, known⟩ := entry
    have hfound : (r.get address).1 = some (configuration, known) := by
      rw [RecencyMap.fst_get, hpeek]
    rw [← Prod.mk.eta (p := r.get address), hfound]
    dsimp only
    by_cases hfresh : instant - known < lifetime
    · rw [if_pos hfresh]
      exact Or.inl ⟨configuration, known, rfl, hfresh, rfl, hsame.trans hpeek⟩
    · rw [if_neg hfresh]
      refine Or.inr ⟨?_, rfl, ?_⟩
      · rintro _ _ ⟨⟩
        exact Nat.le_of_not_lt hfresh
      · rw [RecencyMap.peek?_erase, if_pos rfl]

/-- An address of the network is one whatever files there are. -/
theorem KeySetLocation.ofText_network {files : FileSystem} {text : String} {url : Url}
    (h : ofText files text = .ok (.network url)) (files' : FileSystem) :
    ofText files' text = .ok (.network url) := by
  have hfile (present : Bool) (path : String) :
      (if present then .ok (.file path) else .error (.unsupportedScheme path) :
        Except KeyError KeySetLocation) ≠ .ok (.network url) := by
    cases present <;> nofun
  unfold ofText at h ⊢
  dsimp only at h ⊢
  cases hparsed : Url.parse? (Text.trim text) with
  | none =>
    rw [hparsed] at h
    exact absurd h (hfile _ _)
  | some found =>
    rw [hparsed] at h
    dsimp only at h ⊢
    by_cases hhttp : (found.schemeName == "http" || found.schemeName == "https") = true
    · rw [if_pos hhttp] at h ⊢
      exact h
    · rw [if_neg hhttp] at h
      by_cases hscheme : (found.schemeName == "file") = true
      · rw [if_pos hscheme] at h
        cases hpath : found.filePath? with
        | none =>
          rw [hpath] at h
          exact nomatch h
        | some path =>
          rw [hpath] at h
          exact nomatch h
      · rw [if_neg hscheme] at h
        exact absurd h (hfile _ _)

namespace DiscoveredKeys

/-- A configuration that led to no key set at some moment: it advertised nothing, or nothing that is
a location. -/
def LeadsNowhere (configuration : ProviderConfiguration) (w : Surroundings) : Prop :=
  ∀ uri, configuration.jwksUri.bind Text.nonBlank? = some uri →
    ∃ e, KeySetLocation.ofText w.files uri = .error e

/-- What is remembered of a provider is what it said at one of some moments, and led nowhere then.
-/
def RemembersFailures (address : String) (moments : List (Surroundings × KeyHeader))
    (providers : ProviderRegistry) : Prop :=
  ∀ configuration known, providers.peek? address = some (configuration, known) →
    ∃ moment ∈ moments, moment.1.instant = known ∧
      described moment.1 address = .ok configuration ∧ LeadsNowhere configuration moment.1

variable {d : DiscoveredKeys} {w : Surroundings} {s : ProcessState}

theorem refusedFor?_of_impatient (h : d.retryInterval = 0) (instant : Duration) :
    d.refusedFor? instant = none := by
  unfold refusedFor?
  rw [h]
  cases d.attempted with
  | none => rfl
  | some last =>
    have hlong : ¬ instant - last < 0 := Nat.not_lt_zero _
    show (if instant - last < 0 then some (0 - (instant - last)) else none) = none
    rw [if_neg hlong]

/-- What an attempt that finds no key set has consulted led nowhere. -/
theorem leadsNowhere_of_sought {e : KeyError} {configuration : ProviderConfiguration}
    (hconsulted : consulted d.address w s = .ok configuration) (h : d.sought w s = .error e) :
    LeadsNowhere configuration w := by
  intro uri huri
  cases hlocation : KeySetLocation.ofText w.files uri with
  | error e => exact ⟨e, rfl⟩
  | ok location =>
    have hfound : d.sought w s = .ok { location, lifetime := d.cacheLifetime } :=
      (sought_eq_ok_iff ..).mpr ⟨configuration, uri, location, hconsulted,
        (advertised_eq_ok_iff ..).mpr huri, hlocation, rfl⟩
    exact nomatch hfound.symm.trans h

/-- What is remembered after an attempt was remembered before, or is what the provider said. -/
theorem peek?_registered {address : String} {configuration : ProviderConfiguration}
    {known : Duration}
    (h : (registered address w s).peek? address = some (configuration, known)) :
    s.providers.peek? address = some (configuration, known) ∨
      (consulted address w s = .ok configuration ∧ described w address = .ok configuration ∧
        known = w.instant) := by
  unfold registered at h
  dsimp only at h
  rcases s.providers.find_cases w.instant address with
    ⟨kept, since, hpeek, -, hfound, hstays⟩ | ⟨-, hunknown, hforgotten⟩
  · rw [hfound] at h
    exact Or.inl (hpeek.trans (hstays.symm.trans h))
  · rw [hunknown] at h
    cases hdescribed : described w address with
    | error e =>
      rw [hdescribed] at h
      exact nomatch hforgotten.symm.trans h
    | ok said =>
      rw [hdescribed] at h
      have hself : (ProviderRegistry.register (s.providers.find w.instant address).2 w.instant
          address said).peek? address = some (said, w.instant) := RecencyMap.peek?_put_self _ _ _
      cases hself.symm.trans h
      exact Or.inr ⟨(consulted_of_unknown hunknown).1.trans hdescribed, rfl, rfl⟩

/-- A question that finds no key set was answered by an error, and leaves nothing in the registry
but failures. -/
theorem RemembersFailures.after_locate {moments : List (Surroundings × KeyHeader)}
    (hpast : RemembersFailures d.address moments s.providers) (hunknown : d.keySet = none)
    (hpermitted : d.refusedFor? w.instant = none) {header : KeyHeader}
    (hstill : (d.locate header w s).1.2.keySet = none) :
    (d.locate header w s).1.2 = { d with attempted := some w.instant } ∧
      RemembersFailures d.address (moments ++ [(w, header)])
        (d.locate header w s).2.providers := by
  cases hsought : d.sought w s with
  | ok keySet =>
    rw [locate_of_found hunknown hpermitted hsought, locate_of_known rfl] at hstill
    exact nomatch hstill
  | error e =>
    rw [locate_of_failed hunknown hpermitted hsought, (d.discover_apply w s).2.2]
    refine ⟨rfl, ?_⟩
    intro configuration known hpeek
    rcases peek?_registered hpeek with hbefore | ⟨hconsulted, hdescribed, hknown⟩
    · obtain ⟨moment, hmoment, hfailure⟩ := hpast configuration known hbefore
      exact ⟨moment, List.mem_append_left _ hmoment, hfailure⟩
    · have hnowhere : LeadsNowhere configuration w := leadsNowhere_of_sought hconsulted hsought
      have hlast : (w, header) ∈ moments ++ [(w, header)] :=
        List.mem_append_right moments (List.mem_singleton_self _)
      exact ⟨(w, header), hlast, hknown.symm, hdescribed, hnowhere⟩

/-- Questions to a provider that may be asked again at once, none of which found a key set, leave
nothing behind but the time of the last of them and failures in the registry. -/
theorem RemembersFailures.after_dialogue {past : List (Surroundings × KeyHeader)}
    (hpast : RemembersFailures d.address past s.providers) (hunknown : d.keySet = none)
    (himpatient : d.retryInterval = 0) {moments : List (Surroundings × KeyHeader)}
    (hstill : (Run.dialogue locate d moments s).1.2.keySet = none) :
    (∃ attempted, (Run.dialogue locate d moments s).1.2 = { d with attempted }) ∧
      RemembersFailures d.address (past ++ moments)
        (Run.dialogue locate d moments s).2.providers := by
  induction moments generalizing d s past with
  | nil =>
    rw [List.append_nil]
    exact ⟨⟨d.attempted, rfl⟩, hpast⟩
  | cons moment moments ih =>
    obtain ⟨w, header⟩ := moment
    -- a key set that the first question found would still be there in the end
    have hnone : (d.locate header w s).1.2.keySet = none := by
      cases hkeySet : (d.locate header w s).1.2.keySet with
      | none => rfl
      | some keySet =>
        simp only [Run.dialogue, dialogue_of_known hkeySet] at hstill
        cases hstill
    have hpermitted := refusedFor?_of_impatient himpatient w.instant
    obtain ⟨hfirst, hleft⟩ := hpast.after_locate hunknown hpermitted hnone
    have haddress : (d.locate header w s).1.2.address = d.address := by rw [hfirst]
    have hagain : (d.locate header w s).1.2.retryInterval = 0 := by
      rw [hfirst]
      exact himpatient
    rw [← haddress] at hleft
    obtain ⟨⟨attempted, hend⟩, hfailures⟩ := ih hleft hnone hagain hstill
    rw [haddress, List.append_assoc] at hfailures
    refine ⟨⟨attempted, ?_⟩, hfailures⟩
    simp only [Run.dialogue]
    rw [hend, hfirst]

/-- A question is answered with a key, for which the provider was asked anew. -/
def Recovers (d : DiscoveredKeys) (header : KeyHeader) (w : Surroundings) (s : ProcessState)
    (key : KeyMaterial) : Prop :=
  (d.locate header w s).1.1 = .ok key ∧ ∃ target rest, IsAskedAt d.address target ∧
    (d.locate header w s).2.exchanges = s.exchanges ++ ⟨target, w.network target⟩ :: rest

/-- At some moment a provider says where its keys are, they can be had, and the one listed last for
a header is this. -/
def Offers (address : String) (header : KeyHeader) (w : Surroundings) (key : KeyMaterial) : Prop :=
  ∃ configuration uri location keys id, described w address = .ok configuration ∧
    configuration.jwksUri.bind Text.nonBlank? = some uri ∧
    KeySetLocation.ofText w.files uri = .ok location ∧
    KeySet.publishedAt location w = .ok keys ∧ header.requireKeyId = .ok id ∧
    CachedKeySet.lastOf keys id = some key

/-- A provider of which nothing is remembered is asked anew. -/
theorem recovers_of_forgotten {header : KeyHeader} {key : KeyMaterial} (hunknown : d.keySet = none)
    (hpermitted : d.refusedFor? w.instant = none)
    (hforgotten : (s.providers.find w.instant d.address).1 = none)
    (hoffers : Offers d.address header w key) : d.Recovers header w s key := by
  obtain ⟨configuration, uri, location, keys, id, hdescribed, huri, hlocation, hkeys, hid, hkey⟩ :=
    hoffers
  obtain ⟨hconsulted, hasked⟩ := consulted_of_unknown hforgotten
  have hsought : d.sought w s = .ok { location, lifetime := d.cacheLifetime } :=
    (sought_eq_ok_iff ..).mpr ⟨configuration, uri, location, hconsulted.trans hdescribed,
      (advertised_eq_ok_iff ..).mpr huri, hlocation, rfl⟩
  obtain ⟨hanswer, hexchanges⟩ := locate_of_located hunknown hpermitted hsought hid
  obtain ⟨target, htarget⟩ := isAskedAt_of_described hdescribed
  obtain ⟨-, rest, hfirst⟩ := exchangesFor_of_asked htarget w
  refine ⟨?_, target, rest ++ location.exchangesFor w, htarget, ?_⟩
  · rw [hanswer]
    unfold KeySet.answer
    rw [hid, hkeys]
    simp only [hkey]
  · rw [hexchanges, hasked, hfirst, List.append_assoc, List.cons_append]

/-- A provider of which a failure is remembered is not asked at all. -/
theorem not_recovers_of_remembered {configuration : ProviderConfiguration} {w' : Surroundings}
    {header : KeyHeader} {id : String} (hunknown : d.keySet = none)
    (hpermitted : d.refusedFor? w.instant = none)
    (hremembered : (s.providers.find w.instant d.address).1 = some configuration)
    (hnowhere : LeadsNowhere configuration w') (hid : header.requireKeyId = .ok id)
    (key : KeyMaterial) : ¬ d.Recovers header w s key := by
  rintro ⟨hanswer, target, rest, -, hexchanges⟩
  have hconsulted : consulted d.address w s = .ok configuration := by
    unfold consulted
    rw [hremembered]
  have hasked : asked d.address w s = [] := by
    unfold asked
    rw [hremembered]
  cases hsought : d.sought w s with
  | error e =>
    rw [locate_of_failed hunknown hpermitted hsought] at hanswer
    exact nomatch hanswer
  | ok keySet =>
    obtain ⟨found, uri, location, hfound, hadvertised, hlocation, rfl⟩ :=
      (sought_eq_ok_iff d w s keySet).mp hsought
    cases hconsulted.symm.trans hfound
    have hlookUp := (locate_of_located hunknown hpermitted hsought hid).2
    rw [hasked, List.append_nil] at hlookUp
    have hloaded := List.append_cancel_left (hlookUp.symm.trans hexchanges)
    cases location with
    | file path => exact nomatch hloaded
    | network url =>
      -- an address of the network would have led to a key set then, too
      have hurl := KeySetLocation.ofText_network hlocation w'.files
      obtain ⟨e, he⟩ := hnowhere uri ((advertised_eq_ok_iff ..).mp hadvertised)
      exact nomatch he.symm.trans hurl

/-- A provider that may be asked again at once, and of which nothing was known, comes back after any
failures as soon as it offers a key, exactly if the registry remembers nothing of it from the last
fifteen minutes. What it remembers is a well-formed configuration that the provider gave at one of
the failures, which led to no key set. -/
theorem recovers_iff (address : String) (cacheLifetime : Duration)
    (history : List (Surroundings × KeyHeader)) (s : ProcessState)
    (hnew : s.providers.peek? address = none)
    (hfailed : (Run.dialogue locate ⟨address, 0, cacheLifetime, none, none⟩ history s).1.2.keySet =
      none)
    {w : Surroundings} {header : KeyHeader} {key : KeyMaterial}
    (hoffers : Offers address header w key) :
    let run := Run.dialogue locate ⟨address, 0, cacheLifetime, none, none⟩ history s
    (run.1.2.Recovers header w run.2 key ↔
      ∀ remembered known, run.2.providers.peek? address = some (remembered, known) →
        ProviderRegistry.lifetime ≤ w.instant - known) ∧
      RemembersFailures address history run.2.providers := by
  intro run
  let start : DiscoveredKeys := ⟨address, 0, cacheLifetime, none, none⟩
  have hnothing : RemembersFailures start.address [] s.providers := by
    intro remembered known hpeek
    exact nomatch hnew.symm.trans hpeek
  obtain ⟨⟨attempted, hend⟩, hfailures⟩ := hnothing.after_dialogue rfl rfl hfailed
  have hpermitted : run.1.2.refusedFor? w.instant = none := by
    apply refusedFor?_of_impatient
    rw [hend]
  have hstill : run.1.2.keySet = none := hfailed
  have haddress : run.1.2.address = address := by rw [hend]
  rw [← haddress] at hoffers
  refine ⟨?_, hfailures⟩
  rcases run.2.providers.find_cases w.instant address with
    ⟨remembered, known, hpeek, hfresh, hfound, -⟩ | ⟨hold, hforgotten, -⟩
  · -- the failure that is remembered is consulted in place of the provider
    obtain ⟨moment, -, -, -, hnowhere⟩ := hfailures remembered known hpeek
    obtain ⟨-, -, -, -, id, -, -, -, -, hid, -⟩ := hoffers
    rw [← haddress] at hfound
    have hlost : ¬ run.1.2.Recovers header w run.2 key :=
      not_recovers_of_remembered hstill hpermitted hfound hnowhere hid key
    apply iff_of_false hlost
    intro hold
    exact absurd hfresh (Nat.not_lt.mpr (hold remembered known hpeek))
  · rw [← haddress] at hforgotten
    have hback : run.1.2.Recovers header w run.2 key :=
      recovers_of_forgotten hstill hpermitted hforgotten hoffers
    exact iff_of_true hback hold

/-- A moment at which a provider declares that its keys are in a file, which is there. -/
def declaring : Surroundings :=
  { CachedKeySet.doubled with network := fun _ => .answer 200 "\x7b\"jwks_uri\":\"keys.json\"\x7d" }

theorem offers_declaring : Offers providerAddress ⟨some "a", .hs256⟩ declaring (.secret [51]) := by
  let declared : ProviderConfiguration := ⟨none, some "keys.json", none, []⟩
  have hconfiguration :
      ProviderConfiguration.ofText {} "\x7b\"jwks_uri\":\"keys.json\"\x7d" = .ok declared := by
    cbv
  have huri : declared.jwksUri.bind Text.nonBlank? = some "keys.json" := by decide
  have hlocation :
      KeySetLocation.ofText declaring.files "keys.json" = .ok (.file "keys.json") := by
    have htrimmed : Text.trim "keys.json" = "keys.json" := by decide
    have hpath : Url.parse? "keys.json" = none := by decide
    have hpresent : declaring.files.isFile "keys.json" = true := by
      unfold FileSystem.isFile
      rw [show declaring.files.find "keys.json" = _ from CachedKeySet.find_keysFile _]
    unfold KeySetLocation.ofText
    rw [htrimmed]
    dsimp only
    rw [hpath]
    exact if_pos hpresent
  have hid : KeyHeader.requireKeyId ⟨some "a", .hs256⟩ = .ok "a" := by decide
  have hkey : CachedKeySet.lastOf CachedKeySet.doubledKeys "a" = some (.secret [51]) := by
    decide
  exact ⟨declared, "keys.json", .file "keys.json", CachedKeySet.doubledKeys, "a",
    described_of_served rfl hconfiguration, huri, hlocation, CachedKeySet.publishedAt_doubled, hid,
    hkey⟩

/-- What a first question, to which no key set is found, leaves behind. -/
theorem dialogue_of_failed {e : KeyError} (hunknown : d.keySet = none)
    (hpermitted : d.refusedFor? w.instant = none) (h : d.sought w s = .error e)
    (header : KeyHeader) :
    Run.dialogue locate d [(w, header)] s =
      (([.error e], { d with attempted := some w.instant }), (d.discover w s).2) := by
  have hfirst := locate_of_failed hunknown hpermitted h header
  rw [Run.dialogue_singleton, hfirst]

/-- A provider that could not be reached is asked anew. -/
theorem recovers_iff_silent :
    let silent : Surroundings := { announced 0 "" with network := fun _ => .unreachable }
    let header : KeyHeader := ⟨some "a", .hs256⟩
    let run := Run.dialogue locate ⟨providerAddress, 0, 0, none, none⟩ [(silent, header)] {}
    run.1.2.keySet = none ∧ Offers providerAddress header declaring (.secret [51]) ∧
      run.1.2.Recovers header declaring run.2 (.secret [51]) := by
  intro silent header run
  let start : DiscoveredKeys := ⟨providerAddress, 0, 0, none, none⟩
  obtain ⟨reason, hreason⟩ : ∃ e, described silent providerAddress = .error e :=
    described_of_unreachable rfl
  have hconsulted : consulted start.address silent {} = .error reason :=
    (consulted_of_unknown rfl).1.trans hreason
  have hsought : start.sought silent {} = .error (.discovery reason.message) := by
    unfold sought
    rw [hconsulted]
    rfl
  have hstill : run.1.2.keySet = none := by
    simp only [run]
    rw [dialogue_of_failed rfl rfl hsought]
  have hrecovers := recovers_iff providerAddress 0 [(silent, header)] {} rfl hstill offers_declaring
  refine ⟨hstill, offers_declaring, hrecovers.1.mpr ?_⟩
  -- nothing is remembered of a moment at which there was no document
  intro remembered known hpeek
  obtain ⟨moment, hmoment, -, hdescribed, -⟩ := hrecovers.2 remembered known hpeek
  rw [List.mem_singleton.mp hmoment] at hdescribed
  exact nomatch hreason.symm.trans hdescribed

/-- A moment at which the provider does not declare where its keys are. -/
def undeclaring : Surroundings := announced 0 "\x7b\"issuer\":\"x\"\x7d"

/-- A provider that declares where its keys are just after it was asked is not asked anew, although
the retry interval is zero. -/
theorem not_recovers_undeclaring :
    let header : KeyHeader := ⟨some "a", .hs256⟩
    let run := Run.dialogue locate ⟨providerAddress, 0, 0, none, none⟩ [(undeclaring, header)] {}
    run.1.2.keySet = none ∧ Offers providerAddress header declaring (.secret [51]) ∧
      ¬ run.1.2.Recovers header declaring run.2 (.secret [51]) := by
  intro header run
  let start : DiscoveredKeys := ⟨providerAddress, 0, 0, none, none⟩
  let undeclared : ProviderConfiguration := ⟨some "x", none, none, []⟩
  have hdescribed : described undeclaring providerAddress = .ok undeclared := by
    have hconfiguration :
        ProviderConfiguration.ofText {} "\x7b\"issuer\":\"x\"\x7d" = .ok undeclared := by
      cbv
    exact described_of_served rfl hconfiguration
  have hconsulted : consulted start.address undeclaring {} = .ok undeclared :=
    (consulted_of_unknown rfl).1.trans hdescribed
  let reason : KeyError :=
    .invalidDocument providerAddress "configuration does not declare a jwks_uri"
  have hsought : start.sought undeclaring {} = .error (.discovery reason.message) := by
    unfold sought
    rw [hconsulted]
    rfl
  have hrun : run = (([.error (.discovery reason.message)], { start with attempted := some 0 }),
      (start.discover undeclaring {}).2) :=
    dialogue_of_failed rfl rfl hsought header
  have hstill : run.1.2.keySet = none := by rw [hrun]
  have haddress : run.1.2.address = providerAddress := by rw [hrun]
  have hpermitted : run.1.2.refusedFor? declaring.instant = none := by
    apply refusedFor?_of_impatient
    rw [hrun]
  have hproviders : run.2.providers =
      ProviderRegistry.register {} 0 providerAddress undeclared := by
    rw [hrun, (start.discover_apply undeclaring {}).2.2]
    unfold registered
    rw [hdescribed]
    rfl
  have hremembered : (run.2.providers.find declaring.instant run.1.2.address).1 =
      some undeclared := by
    rw [hproviders, haddress]
    decide
  have hnowhere : LeadsNowhere undeclared undeclaring := leadsNowhere_of_sought hconsulted hsought
  obtain ⟨-, -, -, -, id, -, -, -, -, hid, -⟩ := offers_declaring
  have hlost : ¬ run.1.2.Recovers header declaring run.2 (.secret [51]) :=
    not_recovers_of_remembered hstill hpermitted hremembered hnowhere hid _
  exact ⟨hstill, offers_declaring, hlost⟩

end DiscoveredKeys

end BearerAuth

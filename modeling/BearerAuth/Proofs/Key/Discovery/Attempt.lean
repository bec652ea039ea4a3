import BearerAuth.Key.Discovery.Locator
import BearerAuth.Proofs.Key.Requests

namespace BearerAuth.DiscoveredKeys

/-- What a provider says of itself at some moment, if it is asked. -/
def described (w : Surroundings) (address : String) : Except KeyError ProviderConfiguration :=
  (w.documentAt address).bind fun document =>
    (ProviderConfiguration.ofText w.formMessages document).mapError (.invalidDocument address)

/-- What an attempt consults: the configuration that is known, or else what the provider says. -/
def consulted (address : String) (w : Surroundings) (s : ProcessState) :
    Except KeyError ProviderConfiguration :=
  match (s.providers.find w.instant address).1 with
  | some configuration => .ok configuration
  | none => described w address

/-- What an attempt asks of the network: nothing if a configuration is known. -/
def asked (address : String) (w : Surroundings) (s : ProcessState) : List Exchange :=
  match (s.providers.find w.instant address).1 with
  | some _ => []
  | none => w.exchangesFor address

/-- The registry after an attempt. A configuration that was asked for is in it, whether or not a key
set can be found by it. -/
def registered (address : String) (w : Surroundings) (s : ProcessState) : ProviderRegistry :=
  let found := s.providers.find w.instant address
  match found.1, described w address with
  | none, .ok configuration => found.2.register w.instant address configuration
  | _, _ => found.2

theorem configuration_apply (address : String) (w : Surroundings) (s : ProcessState) :
    configuration address w s = (consulted address w s, { s with
      providers := registered address w s
      exchanges := s.exchanges ++ asked address w s }) := by
  unfold configuration consulted registered asked described
  simp only [Run.bind_apply, Run.knownProvider]
  cases (s.providers.find w.instant address).1 with
  | some known => simp only [Run.pure_apply, List.append_nil]
  | none =>
    simp only [Run.bind_apply, Run.fetchKeys_apply]
    cases w.documentAt address with
    | error e => rfl
    | ok document =>
      simp only [Except.bind]
      simp only [Run.bind_apply, Run.surroundings]
      cases ProviderConfiguration.ofText w.formMessages document with
      | error reason => rfl
      | ok configuration => rfl

/-- Where a configuration says that the keys are. -/
def advertised (address : String) (configuration : ProviderConfiguration) :
    Except KeyError String :=
  match configuration.jwksUri.bind Text.nonBlank? with
  | some uri => .ok uri
  | none => .error (.invalidDocument address "configuration does not declare a jwks_uri")

theorem keySetAddress_apply (address : String) (w : Surroundings) (s : ProcessState) :
    keySetAddress address w s =
      ((consulted address w s).bind (advertised address), (configuration address w s).2) := by
  unfold keySetAddress
  rw [Run.bind_apply, configuration_apply]
  dsimp only
  cases consulted address w s with
  | error e => rfl
  | ok configuration =>
    simp only [Except.bind, advertised]
    cases configuration.jwksUri.bind Text.nonBlank? with
    | some uri => rfl
    | none => rfl

/-- The key set that an attempt finds, of which nothing is known yet. -/
def sought (d : DiscoveredKeys) (w : Surroundings) (s : ProcessState) :
    Except KeyError CachedKeySet :=
  match (consulted d.address w s).bind (advertised d.address) with
  | .error e => .error (.discovery e.message)
  | .ok uri =>
    (KeySetLocation.ofText w.files uri).map fun location =>
      { location, lifetime := d.cacheLifetime }

/-- What is not known of a provider is asked for. -/
theorem consulted_of_unknown {address : String} {w : Surroundings} {s : ProcessState}
    (h : (s.providers.find w.instant address).1 = none) :
    consulted address w s = described w address ∧
      asked address w s = w.exchangesFor address := by
  unfold consulted asked
  rw [h]
  exact ⟨rfl, rfl⟩

/-- A provider that can be asked at all is asked at an address of the network. -/
theorem isAskedAt_of_described {address : String} {w : Surroundings}
    {configuration : ProviderConfiguration} (h : described w address = .ok configuration) :
    ∃ target, IsAskedAt address target := by
  cases hdocument : w.documentAt address with
  | error e =>
    unfold described at h
    rw [hdocument] at h
    exact nomatch h
  | ok document => exact isAskedAt_of_documentAt hdocument

theorem advertised_eq_ok_iff (address : String) (configuration : ProviderConfiguration)
    (uri : String) : advertised address configuration = .ok uri ↔
      configuration.jwksUri.bind Text.nonBlank? = some uri := by
  unfold advertised
  cases configuration.jwksUri.bind Text.nonBlank? with
  | none => exact iff_of_false nofun nofun
  | some found =>
    constructor
    · intro h
      rw [Except.ok.inj h]
    · intro h
      rw [Option.some.inj h]

/-- What an attempt finds is a key set at the location that the consulted configuration advertises.
-/
theorem sought_eq_ok_iff (d : DiscoveredKeys) (w : Surroundings) (s : ProcessState)
    (keySet : CachedKeySet) :
    d.sought w s = .ok keySet ↔ ∃ configuration uri location,
      consulted d.address w s = .ok configuration ∧
      advertised d.address configuration = .ok uri ∧
      KeySetLocation.ofText w.files uri = .ok location ∧
      keySet = { location, lifetime := d.cacheLifetime } := by
  unfold sought
  cases consulted d.address w s with
  | error e => simp [Except.bind]
  | ok configuration =>
    simp only [Except.bind]
    cases hadvertised : advertised d.address configuration with
    | error e => simp [hadvertised]
    | ok uri =>
      cases hlocation : KeySetLocation.ofText w.files uri with
      | error e => simp [Except.map, hadvertised, hlocation]
      | ok location => simp [Except.map, hadvertised, hlocation, eq_comm]

/-- An attempt gives the key set that is sought, is remembered whatever comes of it, and asks and
registers no more than the consultation of the provider does. -/
theorem discover_apply (d : DiscoveredKeys) (w : Surroundings) (s : ProcessState) :
    (d.discover w s).1 = (d.sought w s, { d with attempted := some w.instant }) ∧
      (d.discover w s).2.exchanges = s.exchanges ++ asked d.address w s ∧
      (d.discover w s).2.providers = registered d.address w s := by
  unfold discover sought
  simp only [Run.bind_apply, Run.surroundings, keySetAddress_apply, configuration_apply]
  cases (consulted d.address w s).bind (advertised d.address) with
  | error e => exact ⟨rfl, rfl, rfl⟩
  | ok uri =>
    simp only [Run.bind_apply]
    cases KeySetLocation.ofText w.files uri with
    | error e => exact ⟨rfl, rfl, rfl⟩
    | ok location => exact ⟨rfl, rfl, rfl⟩

/-- The error for an attempt that comes too early. -/
def refusal (rest : Duration) : KeyError :=
  .discovery s!"previous attempt failed, next retry permitted in {Duration.text rest}"

variable {d : DiscoveredKeys} {w : Surroundings}

/-- A key set that is known is searched, and no other. -/
theorem locate_of_known {keySet : CachedKeySet} (h : d.keySet = some keySet) (header : KeyHeader)
    (s : ProcessState) :
    d.locate header w s = (((keySet.locate header w s).1.1,
      { d with keySet := some (keySet.locate header w s).1.2 }), (keySet.locate header w s).2) := by
  unfold locate findKeySet
  rw [h]
  rfl

/-- While an attempt is refused, nothing is done. -/
theorem locate_of_refused {rest : Duration} (hunknown : d.keySet = none)
    (h : d.refusedFor? w.instant = some rest) (header : KeyHeader) (s : ProcessState) :
    d.locate header w s = ((.error (refusal rest), d), s) := by
  unfold locate findKeySet
  rw [hunknown]
  simp only [Run.bind_apply, Run.surroundings]
  rw [h]
  rfl

theorem findKeySet_of_permitted (hunknown : d.keySet = none)
    (hpermitted : d.refusedFor? w.instant = none) (s : ProcessState) :
    d.findKeySet w s = d.discover w s := by
  unfold findKeySet
  rw [hunknown]
  simp only [Run.bind_apply, Run.surroundings]
  rw [hpermitted]

/-- An attempt that finds no key set is remembered. -/
theorem locate_of_failed {e : KeyError} {s : ProcessState} (hunknown : d.keySet = none)
    (hpermitted : d.refusedFor? w.instant = none) (h : d.sought w s = .error e)
    (header : KeyHeader) :
    d.locate header w s =
      ((.error e, { d with attempted := some w.instant }), (d.discover w s).2) := by
  unfold locate
  rw [Run.bind_apply, findKeySet_of_permitted hunknown hpermitted, (d.discover_apply w s).1, h]
  rfl

/-- A key set that an attempt finds is kept and searched. -/
theorem locate_of_found {keySet : CachedKeySet} {s : ProcessState} (hunknown : d.keySet = none)
    (hpermitted : d.refusedFor? w.instant = none) (h : d.sought w s = .ok keySet)
    (header : KeyHeader) :
    d.locate header w s = { d with attempted := some w.instant, keySet := some keySet }.locate
      header w (d.discover w s).2 := by
  let found : DiscoveredKeys := { d with attempted := some w.instant, keySet := some keySet }
  have hknown : found.keySet = some keySet := rfl
  rw [locate_of_known hknown]
  unfold locate
  rw [Run.bind_apply, findKeySet_of_permitted hunknown hpermitted, (d.discover_apply w s).1, h]
  rfl

/-- A key set that an attempt finds is loaded at once, and answers by what it publishes then. -/
theorem locate_of_located {location : KeySetLocation} {s : ProcessState}
    (hunknown : d.keySet = none) (hpermitted : d.refusedFor? w.instant = none)
    (h : d.sought w s = .ok { location, lifetime := d.cacheLifetime }) {header : KeyHeader}
    {id : String} (hid : header.requireKeyId = .ok id) :
    (d.locate header w s).1.1 =
        KeySet.answer location CachedKeySet.lastOf (KeySet.publishedAt location w) header ∧
      (d.locate header w s).2.exchanges =
        s.exchanges ++ asked d.address w s ++ location.exchangesFor w := by
  let keySet : CachedKeySet := { location, lifetime := d.cacheLifetime }
  have hempty : keySet.Reflects (KeySet.publishedAt location w) :=
    CachedKeySet.reflects_of_empty rfl
  obtain ⟨-, hasked, -⟩ := d.discover_apply w s
  rw [locate_of_found hunknown hpermitted h, locate_of_known rfl]
  constructor
  · exact (hempty.locate header (d.discover w s).2).1
  · rw [CachedKeySet.locate_of_unknown hid rfl, CachedKeySet.exchanges_reload, hasked]

/-- A provider, to see what comes of what it says. -/
def providerUrl : Url where
  scheme := "http".toList
  username := []
  password := none
  host := some (.domain "idp.example".toList)
  port := none
  path := .segments [".well-known".toList, "openid-configuration".toList]
  query := none
  fragment := none

def providerAddress : String := "http://idp.example/.well-known/openid-configuration"

/-- The address of the provider is in its canonical form. -/
theorem canonical_providerAddress :
    Url.parse? providerAddress = some providerUrl ∧ providerUrl.text = providerAddress := by
  constructor
  · decide +kernel
  · decide

theorem schemeName_providerUrl :
    (providerUrl.schemeName == "http" || providerUrl.schemeName == "https") = true := by
  have hscheme : providerUrl.schemeName = "http" := String.ofList_toList
  rw [hscheme]
  rfl

theorem fetchAddress_providerAddress :
    fetchAddress providerAddress = .ok (providerAddress, providerAddress) := by
  obtain ⟨hparsed, htext⟩ := canonical_providerAddress
  have hhttp : (providerUrl.host.isSome &&
      (providerUrl.schemeName == "http" || providerUrl.schemeName == "https")) = true := by
    rw [schemeName_providerUrl]
    rfl
  have hplain : providerUrl.withoutCredentials.text = providerAddress := htext
  have hasked : providerUrl.withoutCredentials.withoutFragment.text = providerAddress := htext
  unfold fetchAddress
  rw [hparsed]
  unfold Url.fetchAddress
  dsimp only
  rw [if_pos hhttp, hasked, hplain]

/-- A moment at which the network has the same document everywhere. -/
def announced (instant : Duration) (document : String) : Surroundings where
  timeOfDay := 0
  instant := instant
  files := {}
  environment := []
  network := fun _ => .answer 200 document

theorem described_of_served {w : Surroundings} {document : String}
    {configuration : ProviderConfiguration}
    (hserved : w.network providerAddress = .answer 200 document)
    (h : ProviderConfiguration.ofText w.formMessages document = .ok configuration) :
    described w providerAddress = .ok configuration := by
  have hdocument : w.documentAt providerAddress = .ok document := by
    have hfinal : ∀ location, w.network providerAddress ≠ .redirect location := by
      rw [hserved]
      exact fun _ => nofun
    rw [Surroundings.documentAt_of_final fetchAddress_providerAddress hfinal, hserved]
    rfl
  unfold described
  rw [hdocument]
  change (ProviderConfiguration.ofText w.formMessages document).mapError _ = _
  rw [h]
  rfl

theorem described_of_unreachable {w : Surroundings}
    (hunreachable : w.network providerAddress = .unreachable) :
    ∃ e, described w providerAddress = .error e := by
  have hfinal : ∀ location, w.network providerAddress ≠ .redirect location := by
    rw [hunreachable]
    exact fun _ => nofun
  unfold described
  rw [Surroundings.documentAt_of_final fetchAddress_providerAddress hfinal, hunreachable]
  exact ⟨_, rfl⟩

end BearerAuth.DiscoveredKeys

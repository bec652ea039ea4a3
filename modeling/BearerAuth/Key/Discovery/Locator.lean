import BearerAuth.Key.Cache
import BearerAuth.Key.Discovery.Address

namespace BearerAuth

/-- A provider, with its key set once that is known and the instant of the last attempt to find
it. -/
structure DiscoveredKeys where
  address : String
  retryInterval : Duration := Duration.ofSeconds 30
  cacheLifetime : Duration := Duration.ofMinutes 60
  keySet : Option CachedKeySet := none
  attempted : Option Duration := none
deriving DecidableEq, Repr

namespace DiscoveredKeys

/-- The keys of a provider; an address of another form than a discovery address is reported. -/
def ofProvider (uri : String) : Run DiscoveredKeys := do
  let address := DiscoveryAddress.ofText uri
  if address ≠ Text.trim uri then
    Run.say .warn .discovery
      (s!"OpenID Connect provider URL {uri} is not a standard discovery URL, " ++
        s!"using {address}")
  return { address }

/-- The configuration of a provider, known or asked for. -/
def configuration (address : String) : Run (Except KeyError ProviderConfiguration) := do
  match ← Run.knownProvider address with
  | some configuration => return .ok configuration
  | none =>
    match ← Run.fetchKeys address with
    | .error e => return .error e
    | .ok document =>
      match ProviderConfiguration.ofText (← Run.surroundings).formMessages document with
      | .error reason => return .error (.invalidDocument address reason)
      | .ok configuration =>
        Run.registerProvider address configuration
        return .ok configuration

def keySetAddress (address : String) : Run (Except KeyError String) := do
  match ← configuration address with
  | .error e => return .error e
  | .ok configuration =>
    match configuration.jwksUri.bind Text.nonBlank? with
    | some uri => return .ok uri
    | none =>
      return .error (.invalidDocument address "configuration does not declare a jwks_uri")

/-- Asks a provider for its key set; the attempt is remembered whatever comes of it. -/
def discover (d : DiscoveredKeys) : Run (Except KeyError CachedKeySet × DiscoveredKeys) := do
  let w ← Run.surroundings
  let d := { d with attempted := some w.instant }
  match ← keySetAddress d.address with
  | .error e =>
    Run.say .warn .discovery s!"OpenID Connect discovery from {d.address} failed: {e.message}"
    return (.error (.discovery e.message), d)
  | .ok uri =>
    Run.say .info .discovery
      s!"Discovered JWKS URI {uri} from OpenID Connect configuration {d.address}"
    match KeySetLocation.ofText w.files uri with
    | .error e => return (.error e, d)
    | .ok location => return (.ok { location, lifetime := d.cacheLifetime }, d)

/-- How long a new attempt is still refused at an instant. -/
def refusedFor? (d : DiscoveredKeys) (instant : Duration) : Option Duration := do
  let elapsed := instant - (← d.attempted)
  if elapsed < d.retryInterval then some (d.retryInterval - elapsed) else none

/-- The key set of a provider, known or found. -/
def findKeySet (d : DiscoveredKeys) : Run (Except KeyError CachedKeySet × DiscoveredKeys) :=
  match d.keySet with
  | some keySet => pure (.ok keySet, d)
  | none => do
    match d.refusedFor? (← Run.surroundings).instant with
    | some rest =>
      return (.error (.discovery
        s!"previous attempt failed, next retry permitted in {Duration.text rest}"), d)
    | none => d.discover

def locate (d : DiscoveredKeys) (header : KeyHeader) :
    Run (Except KeyError KeyMaterial × DiscoveredKeys) := do
  match ← d.findKeySet with
  | (.error e, d) => return (.error e, d)
  | (.ok keySet, d) =>
    let (result, keySet) ← keySet.locate header
    return (result, { d with keySet := some keySet })

def text (d : DiscoveredKeys) : String := s!"OidcDiscoveryLocator\x7bdiscoveryUri={d.address}\x7d"

end DiscoveredKeys

end BearerAuth

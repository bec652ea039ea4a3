import BearerAuth.Configuration.Names
import BearerAuth.Configuration.Parameters
import BearerAuth.Engine

namespace BearerAuth

/-- A value with an identity. -/
structure Shared (α : Type) where
  identity : Nat
  value : α

namespace Shared

def fresh {α : Type} (value : α) : Run (Shared α) := do
  return ⟨← Run.freshIdentity, value⟩

def isSame {α : Type} (a b : Shared α) : Bool := a.identity == b.identity

end Shared

/-- A provider of values; one of a higher priority is asked earlier. -/
structure Provider (α : Type) where
  name : String
  priority : Int
  configure : Parameters → Run (Except ConfigurationError (Option α))

namespace Provider

/-- The clock skew that is allowed for, in seconds. -/
def clockSkew (p : Parameters) : Run Nat := do
  let skew ← p.number ParameterName.clockSkew 0
  if SignedVerifier.maxClockSkew < skew then
    Run.say .warn .providers
      (s!"Clock skew of {skew}s exceeds the maximum, " ++
        s!"using {SignedVerifier.maxClockSkew}s")
    return SignedVerifier.maxClockSkew
  else
    return skew

/-- Reads the time limit of requests; what it says has no effect on what is answered. -/
def requestTimeout (p : Parameters) : Run Unit := do
  let _ ← p.number ParameterName.requestTimeout 10

/-- How long keys are kept; a number of seconds that takes more than 64 bits is cut down. -/
def cacheLifetime (p : Parameters) : Run Duration := do
  let minutes ← p.number ParameterName.cacheMinutes 60
  return Duration.ofSeconds (min (minutes * 60) 0xffffffffffffffff)

/-- Reports a verifier, and shares it. -/
def provide (kind : String) (v : SignedVerifier) : Run (Shared Verifier) := do
  Run.say .info .providers s!"Configured {kind} verifier {v.text}"
  Shared.fresh (.signed v)

def keyFailure (e : KeyError) : Except ConfigurationError (Option (Shared Verifier)) :=
  .error (.key e)

def holding (skew : Nat) (key : Except KeyError DirectKey) :
    Run (Except ConfigurationError (Option (Shared Verifier))) :=
  match key with
  | .error e => pure (keyFailure e)
  | .ok key => do
    return .ok (some (← provide "JWT"
      (SignedVerifier.withClockSkew { locator := .direct key } skew)))

def publishing (p : Parameters) (skew : Nat) (location : String) :
    Run (Except ConfigurationError (Option (Shared Verifier))) := do
  requestTimeout p
  match KeySetLocation.ofText (← Run.surroundings).files location with
  | .error e => return keyFailure e
  | .ok location =>
    let lifetime ← cacheLifetime p
    let locator := KeyLocator.cached { location, lifetime }
    return .ok (some (← provide "JWT" (SignedVerifier.withClockSkew { locator } skew)))

def publicKey (p : Parameters) (skew : Nat) (path : String) :
    Run (Except ConfigurationError (Option (Shared Verifier))) := do
  let name := (p.string? ParameterName.keyAlgorithm).getD PublicKeyKind.rsa.name
  match PublicKeyKind.ofName? name with
  | none =>
    return .error (.invalidParameter ParameterName.keyAlgorithm
      s!"unsupported key algorithm '{name}'")
  | some kind => holding skew (DirectKey.loadPublic (← Run.surroundings).files path kind)

/-- The provider of verifiers that hold a key or know of a key set. -/
def keys : Provider (Shared Verifier) where
  name := "default"
  priority := 0
  configure p := do
    let skew ← clockSkew p
    match p.string? ParameterName.keySetLocation, p.string? ParameterName.secretKey,
      p.string? ParameterName.publicKey with
    | some location, _, _ => publishing p skew location
    | none, some path, _ => holding skew (DirectKey.loadSecret (← Run.surroundings).files path)
    | none, none, some path => publicKey p skew path
    | none, none, none =>
      Run.say .error .providers
        (s!"No JWT verification configured, one of {ParameterName.keySetLocation}, " ++
          s!"{ParameterName.secretKey} or {ParameterName.publicKey} must be set")
      return .ok none

/-- The provider of verifiers that find keys through an identity provider. -/
def discovery : Provider (Shared Verifier) where
  name := "oidc"
  priority := 100
  configure p :=
    match p.string? ParameterName.providerAddress with
    | none => pure (.ok none)
    | some address => do
      requestTimeout p
      let keys ← DiscoveredKeys.ofProvider address
      let retryInterval := Duration.ofSeconds (← p.number ParameterName.retryInterval 30)
      let lifetime ← cacheLifetime p
      let skew ← clockSkew p
      let locator := KeyLocator.discovered { keys with retryInterval, cacheLifetime := lifetime }
      return .ok (some (← provide "OpenID Connect JWT"
        (SignedVerifier.withClockSkew { locator } skew)))

/-- The provider of verifiers for tokens of a load balancer. -/
def loadBalancer : Provider (Shared Verifier) where
  name := "aws-elb"
  priority := 1
  configure p :=
    match p.string? ParameterName.region with
    | none => pure (.ok none)
    | some region => do
      requestTimeout p
      match SignedVerifier.ofLoadBalancer region with
      | .error e => return keyFailure e
      | .ok verifier =>
        let skew ← clockSkew p
        return .ok (some (← provide "ELB JWT" (verifier.withClockSkew skew)))

def addSource (sources : List HeaderSource) (source : HeaderSource) : List HeaderSource :=
  if sources.contains source then sources else sources ++ [source]

/-- The sources of the named headers, each with the scheme at its position; blank names are passed
over. -/
def namedSources : List String → List String → Except ConfigurationError (List HeaderSource)
  | [], _ => .ok []
  | name :: names, schemes => do
    let rest ← namedSources names schemes.tail
    if name.isEmpty then return rest
    else return (← HeaderSource.make name schemes.head?) :: rest

def headerSources (p : Parameters) : Run (Except ConfigurationError (List HeaderSource)) := do
  let useDefault ← p.boolean ParameterName.useDefaultHeaders false
  let start := if useDefault then [HeaderSource.authorizationBearer] else []
  return (namedSources (p.list ParameterName.headerNames) (p.list ParameterName.headerSchemes)).map
    fun sources => sources.foldl addSource start

/-- The engine of sources, with what parameters say of the realm and the claims. -/
def engineOf (p : Parameters) (sources : List HeaderSource) : Except ConfigurationError Engine := do
  let engine ← Engine.ofSources sources
  let engine := match p.string? ParameterName.realm with
    | some realm => engine.withRealm realm
    | none => engine
  let engine := match p.string? ParameterName.usernameClaims with
    | some claims => engine.withUsernameClaims (ClaimPath.listOfText claims)
    | none => engine
  return match p.string? ParameterName.rolesClaim with
    | some claim => engine.withRolesClaim (ClaimPath.ofText claim)
    | none => engine

def headers : Provider (Shared Engine) where
  name := "default"
  priority := 0
  configure p := do
    match ← headerSources p with
    | .error e => return .error e
    | .ok [] => return .ok none
    | .ok sources =>
      match engineOf p sources with
      | .error e => return .error e
      | .ok engine =>
        Run.say .info .providers s!"Configured JWT engine {engine.text}"
        return .ok (some (← Shared.fresh engine))

/-- The providers of verifiers that are there from the start. -/
def verifiers : List (Provider (Shared Verifier)) := [discovery, loadBalancer, keys]

/-- The providers of engines that are there from the start. -/
def engines : List (Provider (Shared Engine)) := [headers]

/-- Providers in the order in which they are asked: those of the same priority as registered. -/
def ordered {α : Type} (providers : List (Provider α)) : List (Provider α) :=
  providers.mergeSort fun a b => decide (b.priority ≤ a.priority)

/-- The value of the first provider that gives one. Errors are reported and passed over. -/
def firstOf {α : Type} (report : String → ConfigurationError → Run Unit) (p : Parameters) :
    List (Provider α) → Run (Option α)
  | [] => pure none
  | provider :: rest => do
    match ← provider.configure p with
    | .ok (some value) => return some value
    | .ok none => firstOf report p rest
    | .error e =>
      report provider.name e
      firstOf report p rest

def reportVerifier (name : String) (e : ConfigurationError) : Run Unit :=
  Run.say .error .factories
    s!"Verification provider {name} failed to configure a verifier: {e.message}"

def reportEngine (name : String) (e : ConfigurationError) : Run Unit :=
  Run.say .error .factories s!"Engine provider {name} failed to configure an engine: {e.message}"

end Provider

/-- The providers that are registered. -/
structure Factory where
  verifiers : List (Provider (Shared Verifier)) := Provider.verifiers
  engines : List (Provider (Shared Engine)) := Provider.engines

namespace Factory

def registerVerifier (f : Factory) (provider : Provider (Shared Verifier)) : Factory :=
  { f with verifiers := f.verifiers ++ [provider] }

def registerEngine (f : Factory) (provider : Provider (Shared Engine)) : Factory :=
  { f with engines := f.engines ++ [provider] }

/-- The factory with providers registered one after the other, besides those that are there from the
start. -/
def registering (verifiers : List (Provider (Shared Verifier)))
    (engines : List (Provider (Shared Engine))) : Factory :=
  engines.foldl registerEngine (verifiers.foldl registerVerifier {})

def verifier? (f : Factory) (p : Parameters) : Run (Option (Shared Verifier)) :=
  Provider.firstOf Provider.reportVerifier p (Provider.ordered f.verifiers)

def engine? (f : Factory) (p : Parameters) : Run (Option (Shared Engine)) :=
  Provider.firstOf Provider.reportEngine p (Provider.ordered f.engines)

end Factory

end BearerAuth

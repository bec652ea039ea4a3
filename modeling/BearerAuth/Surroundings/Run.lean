import BearerAuth.Json.Parser
import BearerAuth.Key.Discovery.Registry
import BearerAuth.Key.LoadBalancer.Format
import BearerAuth.Surroundings.Event
import BearerAuth.Surroundings.FileSystem
import BearerAuth.Surroundings.Network

/-!
Computations within a process. What surrounds a process does not change while a computation runs;
what the parts of the process share, and what is seen of it from outside, does.
-/

namespace BearerAuth

/-- What surrounds a process: the time of day in seconds since the epoch, the time since some start,
files, the variables of the environment, the network and the words of the reader of documents. -/
structure Surroundings where
  timeOfDay : Int
  instant : Duration
  files : FileSystem
  environment : List (String × String)
  network : Network
  formMessages : Json.FormMessages := {}

/-- The time at which tokens are judged: a time of day before the epoch counts as the epoch. -/
def Surroundings.now (w : Surroundings) : Nat := w.timeOfDay.toNat

/-- What a process has done, the registries that its parts share, and the number of things that
were given an identity. -/
structure ProcessState where
  events : List Event := []
  exchanges : List Exchange := []
  providers : ProviderRegistry := {}
  keyAddresses : KeyAddressFormats := .initial
  identities : Nat := 0

def Run (α : Type) : Type := Surroundings → ProcessState → α × ProcessState

namespace Run

variable {α β : Type}

instance : Monad Run where
  pure a := fun _ s => (a, s)
  bind x f := fun w s => f (x w s).1 w (x w s).2

def surroundings : Run Surroundings := fun w s => (w, s)

def report (event : Event) : Run Unit := fun _ s => ((), { s with events := s.events ++ [event] })

/-- Reports an event that has no fields but its message. -/
def say (level : Level) (area : Area) (message : String) : Run Unit :=
  report { level, area, message }

def knownProvider (uri : String) : Run (Option ProviderConfiguration) := fun w s =>
  let (configuration, providers) := s.providers.find w.instant uri
  (configuration, { s with providers })

def registerProvider (uri : String) (configuration : ProviderConfiguration) : Run Unit :=
  fun w s => ((), { s with providers := s.providers.register w.instant uri configuration })

def forgetProviders : Run Unit := fun _ s => ((), { s with providers := {} })

def keyAddress (region keyId : String) : Run (Except KeyError String) := fun _ s =>
  (s.keyAddresses.address region keyId, s)

/-- Gives a region a format for the addresses of its keys. -/
def registerKeyAddresses (region format : String) : Run Unit := do
  say .info .loadBalancer s!"Registered ELB key URL format {format} for region {region}"
  fun _ s => ((), { s with keyAddresses := s.keyAddresses.register region format })

def freshIdentity : Run Nat := fun _ s => (s.identities, { s with identities := s.identities + 1 })

def fetch (url : String) : Run (Except FetchError String) :=
  match fetchAddress url with
  | .error e => pure (.error e)
  | .ok start => fun w s =>
    let (exchanges, document) := w.network.ask redirectLimit start
    (document, { s with exchanges := s.exchanges ++ exchanges })

/-- Asks for a document; an error names the address. -/
def fetchKeys (url : String) : Run (Except KeyError String) := do
  return (← fetch url).mapError fun e => .fetch url e.message

@[simp] theorem pure_apply (a : α) (w : Surroundings) (s : ProcessState) :
    (pure a : Run α) w s = (a, s) := rfl

@[simp] theorem bind_apply (x : Run α) (f : α → Run β) (w : Surroundings) (s : ProcessState) :
    (x >>= f) w s = f (x w s).1 w (x w s).2 := rfl

end Run

end BearerAuth

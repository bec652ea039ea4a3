import BearerAuth.Token.Algorithm
import BearerAuth.Key.Pem
import BearerAuth.Recency
import BearerAuth.Surroundings.Run

namespace BearerAuth

/-- The keys of the load balancers of a region, with those known. -/
structure LoadBalancerKeys where
  region : String
  known : RecencyMap 25 KeyMaterial := {}
deriving DecidableEq, Repr

namespace LoadBalancerKeys

def ofRegion (region : String) : Except KeyError LoadBalancerKeys :=
  match Text.nonBlank? region with
  | some region => .ok { region }
  | none => .error (.configuration "ELB region cannot be blank")

/-- The characters of a key's identifier, which becomes a part of an address. -/
def isKeyIdChar (c : Char) : Bool := c.isAlphanum || c == '-' || c == '_'

def fetch (region id : String) : Run (Except KeyError KeyMaterial) := do
  match ← Run.keyAddress region id with
  | .error e => return .error e
  | .ok url =>
    let failure (reason : String) : Except KeyError KeyMaterial :=
      .error (.invalidKey s!"Failed to resolve ELB key {id} from URL {url}: {reason}")
    match ← Run.fetchKeys url with
    | .error e => return failure e.message
    | .ok pem =>
      match PemKey.material .ec (Text.Utf8.encode pem) with
      | .error e => return failure e.message
      | .ok key => return .ok key

/-- The key for a token, known or fetched. -/
def locate (l : LoadBalancerKeys) (header : KeyHeader) :
    Run (Except KeyError KeyMaterial × LoadBalancerKeys) :=
  match header.requireKeyId with
  | .error e => pure (.error e, l)
  | .ok id =>
    if !id.toList.all isKeyIdChar then
      pure (.error (.invalidKey s!"ELB key id '{id}' contains unexpected characters"), l)
    else
      match l.known.get id with
      | (some key, known) => pure (.ok key, { l with known })
      | (none, _) => do
        match ← fetch l.region id with
        | .error e => return (.error e, l)
        | .ok key => return (.ok key, { l with known := l.known.put id key })

def text (l : LoadBalancerKeys) : String := s!"ElbKeyResolver\x7bregion={l.region}\x7d"

end LoadBalancerKeys

end BearerAuth

import BearerAuth.Key.Direct
import BearerAuth.Key.Discovery.Locator
import BearerAuth.Key.LoadBalancer.Resolver

namespace BearerAuth

/-- A way to come by keys, with what it has learned so far: one of the library's, or a named one of
any kind, whose answer may depend on how often it was asked before. -/
inductive KeyLocator where
  | direct (key : DirectKey)
  | published (location : KeySetLocation)
  | cached (keySet : CachedKeySet)
  | discovered (keys : DiscoveredKeys)
  | loadBalancer (keys : LoadBalancerKeys)
  | custom (name : String) (asked : Nat)
      (answer : Nat → KeyHeader → Except KeyError KeyMaterial)

namespace KeyLocator

def locate (l : KeyLocator) (header : KeyHeader) :
    Run (Except KeyError KeyMaterial × KeyLocator) :=
  match l with
  | .direct key => return (key.locate header, l)
  | .published location => return (← KeySet.locate location header, l)
  | .cached keySet => do
    let (result, keySet) ← keySet.locate header
    return (result, .cached keySet)
  | .discovered keys => do
    let (result, keys) ← keys.locate header
    return (result, .discovered keys)
  | .loadBalancer keys => do
    let (result, keys) ← keys.locate header
    return (result, .loadBalancer keys)
  | .custom name asked answer => return (answer asked header, .custom name (asked + 1) answer)

def text : KeyLocator → String
  | .direct key => key.text
  | .published location => s!"UrlJwksLocator\x7buri={location.text}\x7d"
  | .cached keySet => keySet.text
  | .discovered keys => keys.text
  | .loadBalancer keys => keys.text
  | .custom name _ _ => name

end KeyLocator

end BearerAuth

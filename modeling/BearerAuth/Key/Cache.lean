import BearerAuth.Key.Set
import BearerAuth.Recency

/-!
A cache in front of a published key set. A miss loads the whole document and keeps every key of it;
a key that was not used for the lifetime is forgotten.
-/

namespace BearerAuth

/-- A key set with the keys known from it, each with the instant of its last use. -/
structure CachedKeySet where
  location : KeySetLocation
  lifetime : Duration := Duration.ofMinutes 60
  known : RecencyMap 25 (KeyMaterial × Duration) := {}
  loads : Nat := 0
deriving DecidableEq, Repr

namespace CachedKeySet

def clear (c : CachedKeySet) : CachedKeySet := { c with known := {} }

/-- The key known for an identifier at an instant, which is a use of it. -/
def find (c : CachedKeySet) (instant : Duration) (id : String) :
    Option KeyMaterial × CachedKeySet :=
  match c.known.peek? id with
  | none => (none, c)
  | some (key, used) =>
    if instant - used < c.lifetime then
      (some key, { c with known := c.known.put id (key, instant) })
    else (none, { c with known := c.known.erase id })

def keep (c : CachedKeySet) (instant : Duration) (keys : KeySet) : CachedKeySet :=
  { c with known := c.known.putAll (keys.map fun (id, key) => (id, key, instant)) }

/-- The key that a document has for an identifier: the last one. -/
def lastOf (keys : KeySet) (id : String) : Option KeyMaterial := keys.reverse.lookup id

/-- Loads the document and looks a key up in it. -/
def reload (c : CachedKeySet) (id : String) :
    Run (Except KeyError KeyMaterial × CachedKeySet) := do
  let c := { c with loads := c.loads + 1 }
  match ← KeySet.load c.location with
  | .error e => return (.error e, c)
  | .ok keys =>
    let instant := (← Run.surroundings).instant
    match lastOf keys id with
    | some key => return (.ok key, c.keep instant keys)
    | none => return (.error (.keyNotFound id c.location.text), c.keep instant keys)

/-- The key for a token, known or loaded. -/
def locate (c : CachedKeySet) (header : KeyHeader) :
    Run (Except KeyError KeyMaterial × CachedKeySet) :=
  match header.requireKeyId with
  | .error e => pure (.error e, c)
  | .ok id => do
    match c.find (← Run.surroundings).instant id with
    | (some key, c) => return (.ok key, c)
    | (none, c) => c.reload id

def text (c : CachedKeySet) : String :=
  s!"CachedJwksLocator\x7buri={c.location.text}, ttl={Duration.text c.lifetime}\x7d"

end CachedKeySet

end BearerAuth

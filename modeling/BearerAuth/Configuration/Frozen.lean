import BearerAuth.Configuration.Provider
import BearerAuth.Exclusion.Basic

namespace BearerAuth

/-- The things that a filter needs, each present or not. -/
structure Slots where
  engine : Option (Shared Engine) := none
  verifier : Option (Shared Verifier) := none
  exclusions : Option (Shared (List PathExclusion)) := none

/-- What was configured, before it is frozen. -/
structure Attributes extends Slots

/-- What is frozen. -/
structure FrozenConfiguration extends Slots

namespace FrozenConfiguration

/-- Sets the engine, to a fallback if there is no candidate. The fallback is asked for only if it is
needed. The answer is whether the engine was set now. -/
def freezeEngineBy {m : Type → Type} [Monad m] (f : FrozenConfiguration)
    (candidate : Option (Shared Engine)) (fallback : m (Option (Shared Engine))) :
    m (Except ConfigurationError Bool × FrozenConfiguration) :=
  match f.engine, candidate with
  | some _, _ => pure (.ok false, f)
  | none, some engine => pure (.ok true, { f with engine := some engine })
  | none, none => do
    match ← fallback with
    | some engine => return (.ok true, { f with engine := some engine })
    | none => return (.error .missingEngine, f)

/-- Sets the engine, with a fallback at hand. -/
def freezeEngine (f : FrozenConfiguration) (candidate fallback : Option (Shared Engine)) :
    Except ConfigurationError Bool × FrozenConfiguration :=
  Id.run (f.freezeEngineBy candidate (pure fallback))

def freezeVerifier (f : FrozenConfiguration) (candidate : Option (Shared Verifier)) :
    Except ConfigurationError Bool × FrozenConfiguration :=
  match f.verifier, candidate with
  | some _, _ => (.ok false, f)
  | none, some verifier => (.ok true, { f with verifier := some verifier })
  | none, none => (.error .missingVerifier, f)

/-- Sets the exclusions, to none at all if there is no candidate. -/
def freezeExclusions (f : FrozenConfiguration)
    (candidate : Option (Shared (List PathExclusion))) : Run (Bool × FrozenConfiguration) :=
  match f.exclusions, candidate with
  | some _, _ => pure (false, f)
  | none, some exclusions => pure (true, { f with exclusions := some exclusions })
  | none, none => do
    let exclusions ← Shared.fresh []
    return (true, { f with exclusions := some exclusions })

/-- Reports that what is configured is no longer what is frozen. The answer is whether it was
reported. -/
def warnIfModified {α : Type} (name : String) (current frozen : Option (Shared α)) : Run Bool :=
  match current, frozen with
  | some current, some frozen =>
    if current.isSame frozen then pure false
    else do
      Run.say .warn .frozen
        (s!"JWT authentication {name} was modified after the filter configuration was frozen, " ++
          "the modification is ignored")
      return true
  | _, _ => pure false

end FrozenConfiguration

end BearerAuth

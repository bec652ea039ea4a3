import BearerAuth.Configuration.Automated
import BearerAuth.Exclusion.Warnings

namespace BearerAuth

/-- What becomes of a request. -/
inductive FilterOutcome where
  | excluded
  | authenticated (user : User)
  | rejected
deriving DecidableEq, Repr

/-- A filter: what is configured, what is frozen, and the engine that it falls back on. -/
structure Filter where
  attributes : Attributes := {}
  frozen : FrozenConfiguration := {}
  warnings : ExclusionWarnings := {}
  defaultEngine : Shared Engine

namespace Filter

/-- Freezes the exclusions, or reports that they were modified. -/
def freezeExclusions (f : Filter) : Run Filter :=
  if f.frozen.exclusions.isSome then do
    let _ ← FrozenConfiguration.warnIfModified "path exclusions" f.attributes.exclusions
      f.frozen.exclusions
    return f
  else do
    let (_, frozen) ← f.frozen.freezeExclusions f.attributes.exclusions
    return { f with frozen }

/-- Freezes the engine, or reports that it was modified. -/
def freezeEngine (f : Filter) : Run (Except ConfigurationError Unit × Filter) :=
  if f.frozen.engine.isSome then do
    let _ ← FrozenConfiguration.warnIfModified "engine" f.attributes.engine f.frozen.engine
    return (.ok (), f)
  else
    let (result, frozen) := f.frozen.freezeEngine f.attributes.engine (some f.defaultEngine)
    pure (result.map fun _ => (), { f with frozen })

/-- Freezes the verifier, or reports that it was modified. -/
def freezeVerifier (f : Filter) : Run (Except ConfigurationError Unit × Filter) :=
  if f.frozen.verifier.isSome then do
    let _ ← FrozenConfiguration.warnIfModified "verifier" f.attributes.verifier f.frozen.verifier
    return (.ok (), f)
  else
    let (result, frozen) := f.frozen.freezeVerifier f.attributes.verifier
    pure (result.map fun _ => (), { f with frozen })

/-- Freezes what is configured, as far as it is not frozen yet. -/
def freeze (f : Filter) : Run (Except ConfigurationError Unit × Filter) := do
  let f ← f.freezeExclusions
  match ← f.freezeEngine with
  | (.error e, f) => return (.error e, f)
  | (.ok (), f) => f.freezeVerifier

/-- Configures a filter by parameters and freezes the outcome. Errors are reported. -/
def configure (f : Filter) (factory : Factory) (p : Parameters) : Run Filter := do
  let (configured, attributes) ← f.attributes.configure factory p
  if let .error e := configured then
    Run.say .error .filter s!"Automated JWT authentication configuration failed: {e.message}"
  let (frozen, f) ← { f with attributes }.freeze
  if let .error e := frozen then
    Run.say .error .filter s!"Unable to freeze JWT authentication configuration: {e.message}"
  return f

def excludes (f : Filter) (path : String) : Bool :=
  f.frozen.exclusions.any fun exclusions => isExcludedPath path exclusions.value

def outcomeOf (answer : Answer (Attempt String (Option User))) :
    Answer (Attempt FilterError FilterOutcome) where
  actions := answer.actions
  outcome :=
    match answer.outcome with
    | .ok (some user) => .ok (.authenticated user)
    | .ok none => .ok .rejected
    | .error text => .error (.unexpected text)
    | .panic p => .panic p

def authenticate (f : Filter) (r : Request) :
    Run (Answer (Attempt FilterError FilterOutcome) × Filter) :=
  match f.frozen.engine, f.frozen.verifier with
  | none, _ => pure (⟨.error (.configuration .missingEngine), []⟩, f)
  | some _, none => pure (⟨.error (.configuration .missingVerifier), []⟩, f)
  | some engine, some verifier => do
    let (answer, v) ← engine.value.authenticate r verifier.value
    let frozen := { f.frozen with verifier := some { verifier with value := v } }
    return (outcomeOf answer, { f with frozen })

def handle (f : Filter) (r : Request) :
    Run (Answer (Attempt FilterError FilterOutcome) × Filter) := do
  let (frozen, f) ← f.freeze
  if f.excludes r.path then
    let (_, warnings) ← f.warnings.warnOnce r.path
    return (⟨.ok .excluded, []⟩, { f with warnings })
  else
    match frozen with
    | .error e => return (⟨.error (.configuration e), []⟩, f)
    | .ok () => f.authenticate r

end Filter

end BearerAuth

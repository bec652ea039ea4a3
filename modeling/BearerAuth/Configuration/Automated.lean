import BearerAuth.Configuration.Frozen

namespace BearerAuth.Attributes

def configureVerifier (a : Attributes) (factory : Factory) (p : Parameters) (replace : Bool) :
    Run Attributes :=
  if a.verifier.isNone || replace then do
    match ← factory.verifier? p with
    | some verifier => return { a with verifier := some verifier }
    | none =>
      Run.say .warn .automated "Automated configuration did not produce a JWT verifier"
      return a
  else do
    Run.say .info .automated
      "JWT verifier already configured, skipping automated verifier configuration"
    return a

def configureEngine (a : Attributes) (factory : Factory) (p : Parameters) (replace : Bool) :
    Run Attributes :=
  if a.engine.isNone || replace then do
    match ← factory.engine? p with
    | some engine => return { a with engine := some engine }
    | none => return a
  else do
    Run.say .info .automated
      "JWT engine already configured, skipping automated engine configuration"
    return a

def configureExclusions (a : Attributes) (p : Parameters) (replace : Bool) :
    Run (Except ConfigurationError Unit × Attributes) :=
  if a.exclusions.isNone || replace then
    match p.string? ParameterName.pathExclusions with
    | none => pure (.ok (), a)
    | some text =>
      match PathExclusion.ofList text with
      | .error e => pure (.error e, a)
      | .ok exclusions => do
        let patterns := Text.join ", " (exclusions.map PathExclusion.pattern)
        Run.say .info .automated
          s!"Configured {exclusions.length} path exclusion(s): {patterns}"
        return (.ok (), { a with exclusions := some (← Shared.fresh exclusions) })
  else do
    Run.say .info .automated
      "JWT path exclusions already configured, skipping automated configuration"
    return (.ok (), a)

/-- Configures verifier, engine and exclusions, in this order. -/
def configure (a : Attributes) (factory : Factory) (p : Parameters) :
    Run (Except ConfigurationError Unit × Attributes) := do
  let replace ← p.boolean ParameterName.allowMultiple false
  let a ← a.configureVerifier factory p replace
  let a ← a.configureEngine factory p replace
  a.configureExclusions p replace

end BearerAuth.Attributes

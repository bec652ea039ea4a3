import BearerAuth.Logging.Selection

namespace BearerAuth

/-- The forms of a log. -/
inductive LogFormat where
  | json
  | pretty
deriving DecidableEq, Repr

/-- The form of a name in any letter case; an unknown name means JSON. -/
def LogFormat.ofText (text : String) : LogFormat :=
  if Text.asciiLower text == "pretty" then .pretty else .json

/-- The level, the form, further directives, and whether the place of an event is shown. -/
structure LogConfig where
  level : String
  format : LogFormat
  targetFilter : Option String
  includeLocation : Bool
deriving DecidableEq, Repr

namespace LogConfig

def ofEnvironment (environment : List (String × String)) : LogConfig where
  level := (environment.lookup "JWT_AUTH_LOG_LEVEL").getD "info"
  format := LogFormat.ofText ((environment.lookup "JWT_AUTH_LOG_FORMAT").getD "json")
  targetFilter := environment.lookup "JWT_AUTH_LOG_TARGET_FILTER"
  includeLocation := environment.lookup "JWT_AUTH_LOG_INCLUDE_LOCATION" == some "true"

def development : LogConfig := ⟨"debug", .pretty, none, true⟩

/-- The threshold of the level; an unknown level means information. -/
def threshold (c : LogConfig) : Threshold :=
  match Text.asciiLower c.level with
  | "trace" => some .trace
  | "debug" => some .debug
  | "warn" => some .warn
  | "error" => some .error
  | _ => some .info

/-- The events that are shown: those that the environment selects, else those of the level; then
the further directives count. Entries that are no directives are passed over. -/
def selection (c : LogConfig) (environment : List (String × String)) : LogSelection :=
  let start := ((environment.lookup "RUST_LOG").bind LogSelection.ofText?).getD
    ⟨[.area none c.threshold]⟩
  match c.targetFilter with
  | none => start
  | some text => ((Text.commaList text).filterMap Directive.ofText?).foldl LogSelection.add start

end LogConfig

end BearerAuth

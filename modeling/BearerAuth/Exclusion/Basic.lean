import BearerAuth.Error
import BearerAuth.Exclusion.Wildcard
import BearerAuth.Text.Basic

namespace BearerAuth

/-- A path, or a pattern of paths, that is excluded. -/
structure PathExclusion where
  pattern : String
deriving DecidableEq, Repr

namespace PathExclusion

/-- Whether a pattern, made of nothing but wildcards, slashes and spaces, would exclude every
path. -/
def isBlanket (pattern : String) : Bool :=
  pattern.toList.all fun c => c == '*' || c == '/' || c == ' '

def ofText (text : String) : Except ConfigurationError PathExclusion :=
  let pattern := Text.trim text
  if pattern.isEmpty then
    .error (.invalidExclusion pattern "Cannot have a blank path exclusion")
  else if isBlanket pattern then
    .error (.invalidExclusion pattern "Cannot have a path exclusion that excludes all paths")
  else .ok ⟨pattern⟩

/-- The exclusions of a comma separated list; blank entries do not count. -/
def ofList (text : String) : Except ConfigurationError (List PathExclusion) :=
  ((Text.split ',' text).filter fun entry => !Text.isBlank entry).mapM ofText

def isWildcard (e : PathExclusion) : Bool := e.pattern.toList.contains '*'

/-- Whether a path is excluded; a blank path never is. -/
def excludes (e : PathExclusion) (path : String) : Bool :=
  !Text.isBlank path &&
    if e.isWildcard then Wildcard.accepts e.pattern.toList path.toList else e.pattern == path

end PathExclusion

def isExcludedPath (path : String) (exclusions : List PathExclusion) : Bool :=
  exclusions.any (·.excludes path)

end BearerAuth

import BearerAuth.Recency
import BearerAuth.Surroundings.Run

namespace BearerAuth

/-- The paths warned about last, each with the instant of its warning. -/
structure ExclusionWarnings where
  interval : Duration := Duration.ofMinutes 15
  recent : RecencyMap 10 Duration := {}
deriving DecidableEq, Repr

namespace ExclusionWarnings

/-- Whether a warning is due at an instant, and the paths remembered then. -/
def next (w : ExclusionWarnings) (instant : Duration) (path : String) : Bool × ExclusionWarnings :=
  match w.recent.get path with
  | (some warned, recent) =>
    if instant - warned < w.interval then (false, { w with recent })
    else (true, { w with recent := recent.put path instant })
  | (none, recent) => (true, { w with recent := recent.put path instant })

/-- Warns about a path, unless that was done recently. The answer is whether it was done now. -/
def warnOnce (w : ExclusionWarnings) (path : String) : Run (Bool × ExclusionWarnings) := do
  let (due, w) := w.next (← Run.surroundings).instant path
  if due then
    Run.report {
      level := .warn, area := .exclusion
      message := s!"Request to path {path} is excluded from JWT Authentication filtering " ++
        "by filter configuration"
      fields := [("path", path)] }
  return (due, w)

end ExclusionWarnings

end BearerAuth

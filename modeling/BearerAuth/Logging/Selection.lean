import BearerAuth.Surroundings.Event
import BearerAuth.Text.Basic

/-!
Which events a log shows. A selection is a list of directives, each a target with a level: the
directive with the longest target that an event's area starts with decides.
-/

namespace BearerAuth

/-- The gravest events only, down to a level, or none at all. -/
abbrev Threshold := Option Level

namespace Threshold

def shows (t : Threshold) (level : Level) : Bool :=
  t.any fun most => decide (level.rank ≤ most.rank)

/-- The threshold of a name in any letter case, or of a number. -/
def ofText? (text : String) : Option Threshold :=
  match Text.asciiLower text with
  | "0" | "off" => some none
  | "" | "1" | "error" => some (some .error)
  | "2" | "warn" => some (some .warn)
  | "3" | "info" => some (some .info)
  | "4" | "debug" => some (some .debug)
  | "5" | "trace" => some (some .trace)
  | _ => none

end Threshold

/-- A directive for the areas of a target, for all areas, or for a scope in which no event is
reported. -/
inductive Directive where
  | area (target : Option String) (threshold : Threshold)
  | scope
deriving DecidableEq, Repr

namespace Directive

def startsWith (c : Char) : Bool :=
  c.isAlphanum || 128 ≤ c.toNat || c == '-' || c == ':' || c == '_'

/-- The threshold after an equals sign; all events if nothing stands there. -/
def thresholdOf? (text : String) : Option Threshold :=
  if text.isEmpty then some (some .trace) else Threshold.ofText? text

def scopeOf? (cs : List Char) : Option Directive :=
  match cs.dropWhile (· != ']') with
  | [] => none
  | [_] => some .scope
  | _ :: '=' :: level => (thresholdOf? (String.ofList level)).map fun _ => .scope
  | _ => none

def ofText? (text : String) : Option Directive :=
  match (Text.trim text).toList with
  | [] => none
  | c :: rest =>
    if c == '[' then scopeOf? rest
    else if !startsWith c then none
    else
      let target := (c :: rest).takeWhile fun c => c != '=' && c != '['
      match (c :: rest).drop target.length with
      | [] =>
        some (match Threshold.ofText? text with
          | some threshold => .area none threshold
          | none => .area (some text) (some .trace))
      | '=' :: level =>
          (thresholdOf? (String.ofList level)).map (.area (some (String.ofList target)))
      | _ :: body => scopeOf? body

/-- How many characters of a target an event's area has to start with. -/
def weight : Directive → Nat
  | .area (some target) _ => target.length + 1
  | _ => 0

def covers (area : Area) : Directive → Bool
  | .area (some target) _ => area.target.startsWith target
  | .area none _ => true
  | .scope => false

def threshold : Directive → Threshold
  | .area _ threshold => threshold
  | .scope => none

def sameTarget : Directive → Directive → Bool
  | .area a _, .area b _ => a == b
  | _, _ => false

end Directive

/-- Directives, at most one for a target. -/
structure LogSelection where
  directives : List Directive
deriving DecidableEq, Repr

namespace LogSelection

/-- Adds a directive in the stead of one for the same target. -/
def add (s : LogSelection) (d : Directive) : LogSelection :=
  ⟨d :: s.directives.filter fun x => !d.sameTarget x⟩

/-- The selection of directives; without any, errors are shown. -/
def ofDirectives (ds : List Directive) : LogSelection :=
  if ds.isEmpty then ⟨[.area none (some .error)]⟩ else ds.foldl add ⟨[]⟩

/-- The selection of a comma separated list, every entry of which is a directive. -/
def ofText? (text : String) : Option LogSelection := do
  let directives ← ((Text.split ',' text).filter (· != "")).mapM Directive.ofText?
  return ofDirectives directives

/-- The weightier of two directives; the first one of equals. -/
def weightier (a b : Directive) : Directive := if a.weight < b.weight then b else a

def shows (s : LogSelection) (event : Event) : Bool :=
  match s.directives.filter (Directive.covers event.area) with
  | [] => false
  | d :: rest => (rest.foldl weightier d).threshold.shows event.level

end LogSelection

end BearerAuth

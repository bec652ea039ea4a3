import BearerAuth.Json.Printer
import BearerAuth.Text.Basic

namespace BearerAuth

/-- The members of a token's payload, in order of their names. -/
structure Claims where
  members : Json.Members := []
deriving DecidableEq, Repr

namespace Claims

/-- The claims of a payload, which is an object. -/
def ofJson? (v : Json) : Option Claims := v.object?.map Claims.mk

def toJson (c : Claims) : Json := .object c.members

def get? (c : Claims) (name : String) : Option Json := c.members.get? name

/-- Whom the token is about, if it is said in a text. -/
def subject? (c : Claims) : Option String := (c.get? "sub").bind Json.string?

end Claims

/-- A way to a claim through nested objects; the empty path leads nowhere. -/
structure ClaimPath where
  segments : List String := []
deriving DecidableEq, Repr

namespace ClaimPath

/-- The path of names between dots; blank ones do not count. -/
def ofText (dotted : String) : ClaimPath := ⟨(Text.split '.' dotted).filterMap Text.nonBlank?⟩

def isSet (p : ClaimPath) : Bool := !p.segments.isEmpty

/-- The paths of a comma separated list; empty ones do not count. -/
def listOfText (text : String) : List ClaimPath := ((Text.split ',' text).map ofText).filter isSet

def text (p : ClaimPath) : String := Text.join "." p.segments

def follow : List String → Json.Members → Option Json
  | [], _ => none
  | [last], members => members.get? last
  | name :: rest, members => do follow rest (← (← members.get? name).object?)

def find? (p : ClaimPath) (c : Claims) : Option Json := follow p.segments c.members

end ClaimPath

namespace Roles

/-- The role of an item in a list of roles: null is none, a text is trimmed, any other value is its
text. -/
def ofItem? : Json → Option String
  | .null => none
  | .string s => Text.nonBlank? s
  | v => some v.text

/-- The roles in a claim, in the order they are written: a comma separated text or an array. -/
def listed : Option Json → List String
  | some (.string s) => Text.commaList s
  | some (.array items) => items.filterMap ofItem?
  | _ => []

/-- The roles in a claim, in order and each once. -/
def ofClaim (v : Option Json) : List String :=
  ((listed v).mergeSort fun a b => decide (a ≤ b)).eraseDups

end Roles

end BearerAuth

import BearerAuth.Attempt
import BearerAuth.Claims
import BearerAuth.HeaderSource
import BearerAuth.Text.Basic

namespace BearerAuth

/-- Who made a request, and the token that says so. -/
structure User where
  username : String
  token : String
  source : HeaderSource
  claims : Claims
  rolesClaim : Option ClaimPath
deriving DecidableEq, Repr

namespace User

/-- The roles of a user, in order; none if no claim is configured for them. -/
def roles (u : User) : List String :=
  match u.rolesClaim with
  | some path => Roles.ofClaim (path.find? u.claims)
  | none => []

def hasRole (u : User) (role : String) : Bool := u.roles.contains role

end User

/-- A request as authentication sees it. A look at a header may panic or answer otherwise than the
looks before it, whose number it is told. Asking for the address may panic; attaching a user may
fail with a text or panic. -/
structure Request where
  headerValues : Nat → String → Attempt Empty (List String)
  path : String
  address : Attempt Empty String
  attach : User → Attempt String Unit

/-- One thing done to a response. -/
inductive ResponseAction where
  | setStatus (status : Nat)
  | addHeader (name value : String)
  | sendError (status : Nat) (message : String)
deriving DecidableEq, Repr

namespace Request

/-- A request of header fields, whose names are matched whatever their letter case. -/
def ofFields (fields : List (String × String)) (path address : String) : Request where
  headerValues _ name :=
    .ok ((fields.filter fun f => Text.equalsIgnoringCase f.1 name).map Prod.snd)
  path := path
  address := .ok address
  attach _ := .ok ()

end Request

namespace ResponseAction

def lastStatus? (actions : List ResponseAction) : Option Nat :=
  actions.reverse.findSome? fun
    | .setStatus status => some status
    | _ => none

/-- The header fields that were added, in order. -/
def addedHeaders (actions : List ResponseAction) : List (String × String) :=
  actions.filterMap fun
    | .addHeader name value => some (name, value)
    | _ => none

/-- The errors that were sent, in order. -/
def sentErrors (actions : List ResponseAction) : List (Nat × String) :=
  actions.filterMap fun
    | .sendError status message => some (status, message)
    | _ => none

end ResponseAction

/-- What came of a request, and what was done to its response. -/
structure Answer (α : Type) where
  outcome : α
  actions : List ResponseAction := []

end BearerAuth

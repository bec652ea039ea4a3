import BearerAuth.Http.Header
import BearerAuth.Http.Status
import BearerAuth.Http.Uri
import BearerAuth.Surroundings.Run

namespace BearerAuth.Http

/-- A request: its target and its header fields. -/
structure Message where
  target : Uri
  headers : HeaderMap
deriving DecidableEq, Repr

namespace Message

/-- Adds a field, if its name and its value are such. -/
def addField (headers : HeaderMap) (field : String × String) : Option HeaderMap := do
  let name ← headerName? field.1
  if isHeaderValue field.2 then some (headers.append name field.2) else none

def make? (target : String) (fields : List (String × String)) : Option Message := do
  let uri ← (Uri.parse target).toOption
  let headers ← fields.foldlM addField []
  return ⟨uri, headers⟩

def headerValues (m : Message) (name : String) : List String :=
  (m.headers.valuesOf name).filter isReadable

end Message

/-- A response: its status and its header fields. -/
structure Response where
  status : Nat := 200
  headers : HeaderMap := []
deriving DecidableEq, Repr

namespace Response

def setStatus (r : Response) (status : Nat) : Response := { r with status := statusOf status }

/-- Adds a header field; one that cannot be is reported and left out. -/
def addHeader (r : Response) (name value : String) : Run Response :=
  match Message.addField r.headers (name, value) with
  | some headers => pure { r with headers }
  | none => do
    Run.say .warn .binding s!"Dropping invalid response header {name}"
    return r

end Response

end BearerAuth.Http

import BearerAuth.Http.Status
import BearerAuth.Url.Basic

namespace BearerAuth

/-- What comes of asking for a document. A redirect is an answer with the status 301, 302, 303, 307
or 308 that names another address, which is taken relative to the one that was asked. -/
inductive Reply where
  | unreachable
  | dropped
  | answer (status : Nat) (body : String)
  | redirect (location : Url)
deriving DecidableEq, Repr

abbrev Network := String → Reply

/-- A request that was made, with its reply. -/
structure Exchange where
  url : String
  reply : Reply
deriving DecidableEq, Repr

/-- Why a document cannot be had. -/
inductive FetchError where
  | address
  | unsupported (url : String)
  | connection (url : String)
  | redirects (url : String)
  | status (code : Nat) (url : String)
deriving DecidableEq, Repr

def FetchError.message : FetchError → String
  | .address => "builder error"
  | .unsupported url => s!"builder error for url ({url})"
  | .connection url => s!"error sending request for url ({url})"
  | .redirects url => s!"error following redirect for url ({url})"
  | .status code url =>
    let side := if code < 500 then "client" else "server"
    s!"HTTP status {side} error ({Http.statusLine code}) for url ({url})"

/-- The document of a reply; only client and server errors are failures. A redirect that is not
followed any more is a failure too. -/
def Reply.document (url : String) : Reply → Except FetchError String
  | .unreachable => .error (.connection url)
  | .dropped => .error (.connection url)
  | .answer status body =>
    if 400 ≤ status && status ≤ 599 then .error (.status status url) else .ok body
  | .redirect _ => .error (.redirects url)

/-- The address to ask a server for, and its text in messages. -/
def Url.fetchAddress (u : Url) : Except FetchError (String × String) :=
  let shown := u.withoutCredentials
  if u.host.isSome && (u.schemeName == "http" || u.schemeName == "https") then
    .ok (shown.withoutFragment.text, shown.text)
  else .error (.unsupported u.text)

def fetchAddress (url : String) : Except FetchError (String × String) :=
  match Url.parse? url with
  | none => .error .address
  | some u => u.fetchAddress

/-- How many redirects are followed for one document. -/
def redirectLimit : Nat := 10

/-- Asks for the document at an address, and for what it is redirected to as often as that is
allowed: the exchanges in order, and the document. -/
def Network.ask (network : Network) :
    Nat → String × String → List Exchange × Except FetchError String
  | 0, (address, shown) => ([⟨address, network address⟩], (network address).document shown)
  | allowed + 1, (address, shown) =>
    let exchange : Exchange := ⟨address, network address⟩
    match network address with
    | .redirect location =>
      match location.fetchAddress with
      | .error e => ([exchange], .error e)
      | .ok next =>
        let (exchanges, document) := network.ask allowed next
        (exchange :: exchanges, document)
    | reply => ([exchange], reply.document shown)

end BearerAuth

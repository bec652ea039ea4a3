namespace BearerAuth.Http

/-- A request's target. -/
structure Uri where
  scheme : Option String
  authority : Option String
  path : String
deriving DecidableEq, Repr

namespace Uri

/-- Why a text is no target. -/
inductive ParseError where
  | character
  | authority
  | format
  | tooLong
  | empty
  | schemeTooLong
deriving DecidableEq, Repr

def ParseError.message : ParseError → String
  | .character => "invalid uri character"
  | .authority => "invalid authority"
  | .format => "invalid format"
  | .tooLong => "uri too long"
  | .empty => "empty string"
  | .schemeTooLong => "scheme too long"

def maxBytes : Nat := 65534

/-- The characters of an authority, which ends at the first slash, question mark or hash. -/
def isAuthorityChar (c : Char) : Bool := c.isAlphanum || "!$&'()*+,-.:;=@[]_~".toList.contains c

def endsAuthority (c : Char) : Bool := c == '/' || c == '?' || c == '#'

/-- What is known of an authority that is read from left to right: the colons and the percent signs
that count for the host, the brackets, and whether the last character is `@`. -/
structure AuthorityScan where
  colons : Nat := 0
  percent : Bool := false
  opened : Bool := false
  closed : Bool := false
  atSign : Bool := false

/-- Reads one character of an authority. User information and a bracketed address may hold colons
and percent signs; so these are forgotten at `@` and at `]`. -/
def AuthorityScan.next (s : AuthorityScan) (c : Char) : Except ParseError AuthorityScan :=
  let s := { s with atSign := c == '@' }
  match c with
  | ':' => if 8 ≤ s.colons then throw .authority else return { s with colons := s.colons + 1 }
  | '[' => if s.percent || s.opened then throw .authority else return { s with opened := true }
  | ']' =>
    if !s.opened || s.closed then throw .authority
    else return { s with closed := true, colons := 0, percent := false }
  | '@' => return { s with colons := 0, percent := false }
  | '%' => return { s with percent := true }
  | c => if isAuthorityChar c then return s else throw .character

/-- The authority at the start of a text, and what follows it. -/
def readAuthority (cs : List Char) : Except ParseError (List Char × List Char) := do
  let authority := cs.takeWhile fun c => !endsAuthority c
  let scan ← authority.foldlM AuthorityScan.next {}
  if scan.opened != scan.closed || 1 < scan.colons || scan.atSign || scan.percent then
    throw .authority
  return (authority, cs.drop authority.length)

/-- The characters of a path; everything beyond ASCII is taken as it is. -/
def isPathChar (c : Char) : Bool :=
  let n := c.toNat
  n == 0x21 || n == 0x22 || (0x24 ≤ n && n ≤ 0x3B) || n == 0x3D || (0x40 ≤ n && n ≤ 0x5F) ||
    0x61 ≤ n

/-- The characters of a query; everything beyond ASCII is taken as it is. -/
def isQueryChar (c : Char) : Bool :=
  let n := c.toNat
  n == 0x21 || (0x24 ≤ n && n ≤ 0x3B) || n == 0x3D || 0x3F ≤ n

/-- The path at the start of a text; the query and the fragment are dropped. -/
def readPath (cs : List Char) : Except ParseError (List Char) :=
  let path := cs.takeWhile fun c => c != '?' && c != '#'
  let query :=
    match cs.drop path.length with
    | '?' :: rest => rest.takeWhile (· != '#')
    | _ => []
  if path.all isPathChar && query.all isQueryChar then return path else throw .character

def isSchemeChar (c : Char) : Bool := c.isAlphanum || c == '+' || c == '-' || c == '.'

/-- The scheme in front of `://`, and what follows. The two web schemes are put in lower case. -/
def readScheme? (cs : List Char) : Except ParseError (Option (List Char × List Char)) :=
  let scheme := cs.takeWhile isSchemeChar
  match cs.drop scheme.length with
  | ':' :: '/' :: '/' :: rest =>
    let lower := scheme.map Char.toLower
    if lower == "http".toList || lower == "https".toList then return some (lower, rest)
    else if cs.length ≤ 3 then return none
    else if 64 < scheme.length then throw .schemeTooLong
    else return some (scheme, rest)
  | _ => return none

def readAbsolute (cs : List Char) : Except ParseError Uri := do
  match ← readScheme? cs with
  | none =>
    let (authority, rest) ← readAuthority cs
    if rest.isEmpty then return ⟨none, some (String.ofList authority), ""⟩ else throw .format
  | some (scheme, rest) =>
    let (authority, rest) ← readAuthority rest
    if authority.isEmpty then
      throw .format
    let path ← readPath rest
    return ⟨some (String.ofList scheme), some (String.ofList authority),
      if path.isEmpty then "/" else String.ofList path⟩

def parse (s : String) : Except ParseError Uri :=
  if maxBytes < s.utf8ByteSize then throw .tooLong
  else
    match s.toList with
    | [] => throw .empty
    | ['*'] => return ⟨none, none, "*"⟩
    | '/' :: rest => do return ⟨none, none, String.ofList (← readPath ('/' :: rest))⟩
    | [c] => do
      let (authority, rest) ← readAuthority [c]
      if rest.isEmpty then return ⟨none, some (String.ofList authority), ""⟩ else throw .character
    | cs => readAbsolute cs

/-- The address that a client may be told: scheme, authority and path, or the path alone. The query
is never part of it. -/
def address (u : Uri) : String :=
  match u.scheme, u.authority with
  | some scheme, some authority => s!"{scheme}://{authority}{u.path}"
  | _, _ => u.path

end Uri

end BearerAuth.Http

import BearerAuth.Text.Basic

namespace BearerAuth.Http

def isTokenChar (c : Char) : Bool := c.isAlphanum || "!#$%&'*+-.^_\x60|~".toList.contains c

def maxHeaderName : Nat := 65535

/-- The name of a header field in lower case, if it is a token. -/
def headerName? (name : String) : Option String :=
  let cs := name.toList
  if !cs.isEmpty && cs.length ≤ maxHeaderName && cs.all isTokenChar then
    some (Text.asciiLower name)
  else none

/-- The characters of a header value: tabs and everything but control characters. -/
def isHeaderValueChar (c : Char) : Bool := (0x20 ≤ c.toNat && c.toNat != 0x7F) || c == '\t'

/-- Whether a text may be the value of a header field. -/
def isHeaderValue (value : String) : Bool := value.toList.all isHeaderValueChar

/-- Whether a header value reads as text: visible ASCII, spaces and tabs. -/
def isReadable (value : String) : Bool :=
  value.toList.all fun c => (0x20 ≤ c.toNat && c.toNat < 0x7F) || c == '\t'

/-- Header fields: names in order of their first appearance, each with its values in order. -/
abbrev HeaderMap := List (String × List String)

namespace HeaderMap

/-- Adds a value at the end of those of its name. -/
def append (headers : HeaderMap) (name value : String) : HeaderMap :=
  match headers with
  | [] => [(name, [value])]
  | (n, values) :: rest =>
    if n = name then (n, values ++ [value]) :: rest else (n, values) :: append rest name value

def valuesOf (headers : HeaderMap) (name : String) : List String :=
  match headerName? name with
  | some n => (headers.lookup n).getD []
  | none => []

end HeaderMap

end BearerAuth.Http

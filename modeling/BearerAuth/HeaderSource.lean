import BearerAuth.Error
import BearerAuth.Text.Basic

namespace BearerAuth

/-- A header that may hold a token, and the scheme in front of the token. -/
structure HeaderSource where
  header : String
  scheme : Option String
deriving DecidableEq, Repr

/-- The first part of a text, of some number of bytes, and the rest; none if a character stands
across the border. -/
def splitAtByte? : Nat → List Char → Option (List Char × List Char)
  | 0, cs => some ([], cs)
  | _ + 1, [] => none
  | n + 1, c :: cs =>
    if c.utf8Size ≤ n + 1 then
      (splitAtByte? (n + 1 - c.utf8Size) cs).map fun (head, rest) => (c :: head, rest)
    else none
termination_by _ cs => cs.length

namespace HeaderSource

/-- The source of a header and a scheme, both trimmed. A blank scheme is none. -/
def make (header : String) (scheme : Option String) : Except ConfigurationError HeaderSource :=
  match Text.nonBlank? header with
  | none => .error (.invalidHeaderSource "header name cannot be blank")
  | some h => .ok ⟨h, scheme.bind Text.nonBlank?⟩

def authorizationBearer : HeaderSource := ⟨"Authorization", some "Bearer"⟩

/-- What follows a scheme at the start of a text. The scheme counts without letter case, and white
space follows it. -/
def afterScheme? (scheme : String) (cs : List Char) : Option (List Char) := do
  let (head, rest) ← splitAtByte? scheme.utf8ByteSize cs
  if Text.sameLetters head scheme.toList && (rest.head?.any Text.isBlankChar) then
    some rest
  else none

def token? (s : HeaderSource) (value : String) : Option String := do
  let cs := Text.trimChars value.toList
  let rest ←
    match s.scheme with
    | none => some cs
    | some scheme => afterScheme? scheme cs
  let token := Text.trimChars rest
  if token.isEmpty then none else some (String.ofList token)

def text (s : HeaderSource) : String :=
  match s.scheme with
  | some scheme => s!"{s.header}: {scheme} <jwt>"
  | none => s!"{s.header}: <jwt>"

end HeaderSource

/-- A header value found for a source. -/
structure TokenCandidate where
  source : HeaderSource
  value : Option String
deriving DecidableEq, Repr

def TokenCandidate.token? (c : TokenCandidate) : Option String := c.value.bind c.source.token?

end BearerAuth

import BearerAuth.Url.Host

namespace BearerAuth

/-- The path of an address: segments, or a text that is no hierarchy. -/
inductive Url.Path where
  | segments (names : List (List Char))
  | text (cs : List Char)
deriving DecidableEq, Repr

/-- An absolute address. -/
structure Url where
  scheme : List Char
  username : List Char
  password : Option (List Char)
  host : Option Host
  port : Option Nat
  path : Url.Path
  query : Option (List Char)
  fragment : Option (List Char)
deriving DecidableEq, Repr

namespace Url

/-- The port of a special scheme that is left unsaid. -/
def defaultPort? (scheme : List Char) : Option Nat :=
  match String.ofList scheme with
  | "http" | "ws" => some 80
  | "https" | "wss" => some 443
  | "ftp" => some 21
  | _ => none

def isSpecialScheme (scheme : List Char) : Bool := (defaultPort? scheme).isSome

def isFileScheme (scheme : List Char) : Bool := scheme == "file".toList

def fragmentSet : List Char := " \"<>\x60".toList

def querySet : List Char := " \"#<>".toList

def pathSet : List Char := fragmentSet ++ "#?\x7b\x7d".toList

/-- The characters encoded in a user name or a password. -/
def userSet : List Char := pathSet ++ "/:;=@[\\]^|".toList

/-- The characters at which the part before the path ends. -/
def endsAuthority (backslash : Bool) (c : Char) : Bool :=
  c == '/' || c == '?' || c == '#' || (backslash && c == '\\')

def isDrive (cs : List Char) : Bool :=
  match cs with
  | [a, b] => a.isAlpha && (b == ':' || b == '|')
  | _ => false

def isSingleDot (cs : List Char) : Bool :=
  let l := cs.map Char.toLower
  l == ['.'] || l == "%2e".toList

def isDoubleDot (cs : List Char) : Bool :=
  let l := cs.map Char.toLower
  l == "..".toList || l == ".%2e".toList || l == "%2e.".toList || l == "%2e%2e".toList

/-- The segments without the last one; the drive of a file stays. -/
def parent (file : Bool) (segments : List (List Char)) : List (List Char) :=
  match segments with
  | [d] => if file && isDrive d then [d] else []
  | _ => segments.dropLast

/-- Takes a segment into a path; the last one leaves an empty segment if it names a directory. -/
def step (file : Bool) (segments : List (List Char)) (segment : List Char) (last : Bool) :
    List (List Char) :=
  if isDoubleDot segment then
    parent file segments ++ if last then [[]] else []
  else if isSingleDot segment then
    segments ++ if last then [[]] else []
  else if file && segments.isEmpty && isDrive segment then
    [segment.take 1 ++ [':']]
  else
    segments ++ [percentEncode pathSet segment]

def resolve (file : Bool) : List (List Char) → List (List Char) → List (List Char)
  | acc, [] => acc
  | acc, [s] => step file acc s true
  | acc, s :: rest => resolve file (step file acc s false) rest

/-- The parts of a text between slashes, and between backslashes if those count. -/
def slashed (backslash : Bool) (cs : List Char) : List (List Char) :=
  (cs.map fun c => if backslash && c == '\\' then '/' else c).splitOn '/'

/-- The path of a text that follows the authority. A file's path has no empty segments in front. -/
def pathOf (special file : Bool) (cs : List Char) : List (List Char) :=
  let cs := match cs with
    | c :: rest => if c == '/' || ((special || file) && c == '\\') then rest else c :: rest
    | [] => []
  let segments := resolve file [] (slashed (special || file) cs)
  if file then
    match segments.dropWhile List.isEmpty with
    | [] => [[]]
    | kept => kept
  else segments

/-- The text before a query or a fragment, the query and the fragment. -/
def cut (cs : List Char) : List Char × Option (List Char) × Option (List Char) :=
  let body := cs.takeWhile (· != '#')
  let fragment := match cs.dropWhile (· != '#') with
    | [] => none
    | _ :: f => some f
  match body.dropWhile (· != '?') with
  | [] => (body, none, fragment)
  | _ :: q => (body.takeWhile (· != '?'), some q, fragment)

def encodeQuery (special : Bool) (q : List Char) : List Char :=
  percentEncode (if special then '\x27' :: querySet else querySet) q

/-- The text before the last `@`, if there is one, and the text after it. -/
def userAndHost (cs : List Char) : Option (List Char) × List Char :=
  match cs.reverse.dropWhile (· != '@') with
  | [] => (none, cs)
  | _ :: user => (some user.reverse, (cs.reverse.takeWhile (· != '@')).reverse)

/-- The characters of a host up to a colon that is not between brackets, and what follows. -/
def splitPort : Bool → List Char → List Char × List Char
  | _, [] => ([], [])
  | inside, c :: rest =>
    if c == ':' && !inside then ([], c :: rest)
    else
      let inside := if c == '[' then true else if c == ']' then false else inside
      let (host, port) := splitPort inside rest
      (c :: host, port)

/-- The port after the host: none if nothing follows the colon. -/
def port? : List Char → Option (Option Nat)
  | [] => some none
  | [':'] => some none
  | ':' :: digits => do
    let n ← Host.numeral? 10 digits
    if 65535 < n then none else some (some n)
  | _ => none

/-- Reads what follows `//` in an address that is no file's. -/
def withAuthority? (scheme rest : List Char) : Option Url := do
  let special := isSpecialScheme scheme
  let authority := rest.takeWhile fun c => !endsAuthority special c
  let (path, query, fragment) := cut (rest.drop authority.length)
  let (user, hostPort) := userAndHost authority
  let (hostText, portText) := splitPort false hostPort
  if hostText.isEmpty && (special || !portText.isEmpty || user.isSome) then
    none
  let host ← if special then Host.special? hostText else Host.plain? hostText
  let port ← port? portText
  let user := user.getD []
  let password := match user.dropWhile (· != ':') with
    | [] => none
    | [_] => none
    | _ :: p => some (percentEncode userSet p)
  let path :=
    if !special && path.isEmpty then [] else pathOf special false path
  return {
    scheme, password, host
    username := percentEncode userSet (user.takeWhile (· != ':'))
    port := if port = defaultPort? scheme then none else port
    path := .segments path
    query := query.map (encodeQuery special)
    fragment := fragment.map (percentEncode fragmentSet) }

/-- An address of a host and a path without credentials. -/
def ofPath (scheme : List Char) (host : Option Host) (path : Path)
    (query fragment : Option (List Char)) : Url :=
  { scheme, username := [], password := none, host, port := none, path, query,
    fragment := fragment.map (percentEncode fragmentSet) }

/-- Reads what follows the scheme of a file. The local host is none at all. -/
def file? (rest : List Char) : Option Url := do
  let isSlash (c : Char) : Bool := c == '/' || c == '\\'
  let make (host : Option Host) (cs : List Char) : Url :=
    let (path, query, fragment) := cut cs
    ofPath "file".toList host (.segments (pathOf true true path)) (query.map (encodeQuery true))
      fragment
  match rest with
  | a :: b :: more =>
    if isSlash a && isSlash b then
      let hostText := more.takeWhile fun c => !endsAuthority true c
      let after := more.drop hostText.length
      if isDrive hostText then
        return make none more
      else if hostText.isEmpty then
        return make none after
      else
        let host ← Host.special? hostText
        return make (if host = .domain "localhost".toList then none else some host) after
    else return make none rest
  | _ => return make none rest

def other? (scheme rest : List Char) : Option Url :=
  match rest with
  | '/' :: '/' :: rest => withAuthority? scheme rest
  | _ =>
    let (path, query, fragment) := cut rest
    let path := match path with
      | '/' :: _ => Path.segments (pathOf false false path)
      | _ => Path.text (percentEncode [] path)
    some (ofPath scheme none path (query.map (encodeQuery false)) fragment)

def isSchemeChar (c : Char) : Bool := c.isAlphanum || c == '+' || c == '-' || c == '.'

def isOuter (c : Char) : Bool := c.toNat ≤ 0x20

/-- Reads an address. Line ends and tabs within it do not count. -/
def parse? (s : String) : Option Url := do
  let cs := s.toList.dropWhile isOuter
  let cs := (cs.reverse.dropWhile isOuter).reverse
  let cs := cs.filter fun c => c != '\t' && c != '\n' && c != '\r'
  let scheme := (cs.takeWhile isSchemeChar).map Char.toLower
  match cs.dropWhile isSchemeChar with
  | ':' :: rest =>
    if !(scheme.head?.any Char.isAlpha) then none
    else if isFileScheme scheme then file? rest
    else if isSpecialScheme scheme then
      withAuthority? scheme (rest.dropWhile fun c => c == '/' || c == '\\')
    else other? scheme rest
  | _ => none

def userChars (u : Url) : List Char :=
  match u.password with
  | some p => u.username ++ ':' :: p ++ ['@']
  | none => if u.username.isEmpty then [] else u.username ++ ['@']

def Path.chars : Path → List Char
  | .segments names => names.flatMap fun n => '/' :: n
  | .text cs => cs

/-- The text of the part between the scheme and the path. -/
def authorityChars (u : Url) : List Char :=
  match u.host with
  | some host =>
    '/' :: '/' :: u.userChars ++ host.chars ++
      (u.port.map fun p => ':' :: Nat.toDigits 10 p).getD []
  | none => if isFileScheme u.scheme then ['/', '/'] else
    match u.path with
    | .segments ([] :: _ :: _) => ['/', '.']
    | _ => []

def chars (u : Url) : List Char :=
  u.scheme ++ ':' :: u.authorityChars ++ u.path.chars ++
    (u.query.map ('?' :: ·)).getD [] ++ (u.fragment.map ('#' :: ·)).getD []

def text (u : Url) : String := String.ofList u.chars

def schemeName (u : Url) : String := String.ofList u.scheme

def withoutCredentials (u : Url) : Url := { u with username := [], password := none }

def withoutFragment (u : Url) : Url := { u with fragment := none }

/-- The path of the file that an address without a host names. -/
def filePath? (u : Url) : Option String :=
  match u.host, u.path with
  | none, .segments names =>
    let bytes := names.flatMap fun n => 0x2F :: percentDecode (Text.Utf8.encode (String.ofList n))
    let path := Text.Utf8.decodeLossyChars bytes
    let drive := isDrive (path.reverse.take 2).reverse && 2 < path.length
    some (String.ofList (if drive then path ++ ['/'] else path))
  | _, _ => none

end Url

end BearerAuth

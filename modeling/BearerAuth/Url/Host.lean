import BearerAuth.Text.Bytes
import BearerAuth.Url.Punycode

namespace BearerAuth

/-- The sets of ASCII characters that are percent-encoded in the parts of an address; control
characters and everything beyond ASCII always are. -/
def percentEncode (set : List Char) (cs : List Char) : List Char :=
  cs.flatMap fun c =>
    if c.toNat < 0x20 || 0x7E < c.toNat || set.contains c then
      (Text.Utf8.encode (String.singleton c)).flatMap fun b =>
        ['%', (Text.Hex.digit (b.toNat / 16)).toUpper, (Text.Hex.digit (b.toNat % 16)).toUpper]
    else [c]

/-- The bytes of a text in which each `%` with two digits stands for a byte. -/
def percentDecode : List UInt8 → List UInt8
  | 0x25 :: a :: b :: rest =>
    match Text.Hex.value? (Char.ofNat a.toNat), Text.Hex.value? (Char.ofNat b.toNat) with
    | some x, some y => UInt8.ofNat (x * 16 + y) :: percentDecode rest
    | _, _ => 0x25 :: percentDecode (a :: b :: rest)
  | b :: rest => b :: percentDecode rest
  | [] => []

/-- The host of an address. -/
inductive Host where
  | domain (name : List Char)
  | ipv4 (address : Nat)
  | ipv6 (groups : List Nat)
deriving DecidableEq, Repr

namespace Host

def forbidden : List Char := "#/:<>?@[\\]^|".toList

def isDomainChar (c : Char) : Bool :=
  0x20 < c.toNat && c.toNat != 0x7F && c != '%' && !forbidden.contains c

/-- The character or characters that a character of a domain name stands for: letters in lower
case, wide forms in their usual one, invisible characters left out. -/
def foldChar (c : Char) : List Char :=
  let n := c.toNat
  if n < 128 then [c.toLower]
  else if n == 0xAD || n == 0x200B || n == 0x2060 || n == 0xFEFF || (0xFE00 ≤ n && n ≤ 0xFE0F) then
    []
  else if n == 0x3002 || n == 0xFF0E || n == 0xFF61 then ['.']
  else if 0xFF01 ≤ n && n ≤ 0xFF5E then [(Char.ofNat (n - 0xFEE0)).toLower]
  else if (0xC0 ≤ n && n ≤ 0xDE && n != 0xD7) || (0x391 ≤ n && n ≤ 0x3A9) ||
      (0x410 ≤ n && n ≤ 0x42F) then [Char.ofNat (n + 32)]
  else if 0x400 ≤ n && n ≤ 0x40F then [Char.ofNat (n + 80)]
  else if ((0x100 ≤ n && n ≤ 0x12F) || (0x132 ≤ n && n ≤ 0x137) || (0x14A ≤ n && n ≤ 0x177)) &&
      n % 2 == 0 then [Char.ofNat (n + 1)]
  else if ((0x139 ≤ n && n ≤ 0x148) || (0x179 ≤ n && n ≤ 0x17E)) && n % 2 == 1 then
    [Char.ofNat (n + 1)]
  else [c]

/-- A label in ASCII: one with other characters is coded, and one that claims to be coded must
be. -/
def asciiLabel? (label : List Char) : Option (List Char) :=
  if label.all (·.toNat < 128) then
    if ['x', 'n', '-', '-'].isPrefixOf label then
      match Url.Punycode.decode? (label.drop 4) with
      | some cs => if cs.all (·.toNat < 128) then none else some label
      | none => none
    else some label
  else some ('x' :: 'n' :: '-' :: '-' :: Url.Punycode.encode label)

def asciiDomain? (name : List Char) : Option (List Char) := do
  let labels ← ((name.flatMap foldChar).splitOn '.').mapM asciiLabel?
  let domain := ['.'].intercalate labels
  if domain.all isDomainChar then some domain else none

/-- The value of digits in a base; `none` if one is no digit of it. -/
def numeral? (base : Nat) (cs : List Char) : Option Nat :=
  cs.foldlM (fun n c =>
    match Text.Hex.value? c with
    | some v => if v < base then some (n * base + v) else none
    | none => none) 0

/-- A number of an address: hexadecimal after `0x`, octal after `0`, else decimal. -/
def number? : List Char → Option Nat
  | [] => none
  | '0' :: x :: rest =>
    if x == 'x' || x == 'X' then numeral? 16 rest else numeral? 8 (x :: rest)
  | cs => numeral? 10 cs

/-- The parts between the dots, without an empty last one. -/
def dotted (domain : List Char) : List (List Char) :=
  let parts := domain.splitOn '.'
  if 1 < parts.length && parts.getLast? == some [] then parts.dropLast else parts

/-- Whether the last part of a domain name is a number, so that it must be an address. -/
def endsInNumber (domain : List Char) : Bool :=
  match (dotted domain).getLast? with
  | none => false
  | some [] => false
  | some last => last.all (fun c => '0' ≤ c && c ≤ '9') || (number? last).isSome

/-- The address of at most four numbers; the last one fills the bytes that are left. -/
def ipv4? (domain : List Char) : Option Nat := do
  let numbers ← (dotted domain).mapM number?
  if 4 < numbers.length then
    none
  let last ← numbers.getLast?
  let first := numbers.dropLast
  if Nat.pow 256 (4 - first.length) ≤ last || first.any (255 < ·) then
    none
  return (first.zipIdx).foldl (fun n (v, i) => n + v * Nat.pow 256 (3 - i)) last

def group? (cs : List Char) : Option Nat :=
  if cs.isEmpty || 4 < cs.length then none else numeral? 16 cs

def byte? (cs : List Char) : Option Nat := do
  let n ← numeral? 10 cs
  if cs.isEmpty || 255 < n || (1 < cs.length && cs.head? == some '0') then none else some n

/-- The groups between colons, where the last part may be an address of four bytes. -/
def groups? : List (List Char) → Option (List Nat)
  | [] => some []
  | [last] =>
    if last.contains '.' then do
      match ← (last.splitOn '.').mapM byte? with
      | [a, b, c, d] => some [a * 256 + b, c * 256 + d]
      | _ => none
    else (group? last).map ([·])
  | part :: rest => do return (← group? part) :: (← groups? rest)

/-- The parts before and after the first `::`. -/
def splitDoubleColon : List Char → Option (List Char × List Char)
  | ':' :: ':' :: rest => some ([], rest)
  | c :: rest => (splitDoubleColon rest).map fun (a, b) => (c :: a, b)
  | [] => none

def groupsOrNone? (cs : List Char) : Option (List Nat) :=
  if cs.isEmpty then some [] else groups? (cs.splitOn ':')

/-- The address of eight groups, `::` standing for one zero group or more. -/
def ipv6? (cs : List Char) : Option (List Nat) := do
  match splitDoubleColon cs with
  | none =>
    let gs ← groups? (cs.splitOn ':')
    if gs.length = 8 then some gs else none
  | some (before, after) =>
    if before.contains '.' then
      none
    let a ← groupsOrNone? before
    let b ← groupsOrNone? after
    if 7 < a.length + b.length then none
    else some (a ++ List.replicate (8 - a.length - b.length) 0 ++ b)

/-- The host of a text in an address of a special scheme. -/
def special? (cs : List Char) : Option Host :=
  match cs with
  | '[' :: rest =>
    if rest.getLast? == some ']' then (ipv6? rest.dropLast).map .ipv6 else none
  | _ => do
    let bytes := percentDecode (Text.Utf8.encode (String.ofList cs))
    let domain ← asciiDomain? (Text.Utf8.decodeLossyChars bytes)
    if domain.isEmpty then none
    else if endsInNumber domain then (ipv4? domain).map .ipv4
    else some (.domain domain)

def plain? (cs : List Char) : Option Host :=
  match cs with
  | '[' :: rest =>
    if rest.getLast? == some ']' then (ipv6? rest.dropLast).map .ipv6 else none
  | _ =>
    if cs.any fun c => c == ' ' || c == '\x00' || forbidden.contains c then none
    else some (.domain (percentEncode [] cs))

/-- The start and the length of the first longest run of zeros among groups. -/
def zeroRun (groups : List Nat) : Nat × Nat :=
  (List.range groups.length).foldl (fun best i =>
    let n := ((groups.drop i).takeWhile (· == 0)).length
    if best.2 < n then (i, n) else best) (0, 0)

def groupChars (groups : List Nat) : List Char := [':'].intercalate (groups.map (Nat.toDigits 16))

def chars : Host → List Char
  | .domain name => name
  | .ipv4 n =>
    ['.'].intercalate
      ([n / 0x1000000, n / 0x10000 % 256, n / 256 % 256, n % 256].map (Nat.toDigits 10))
  | .ipv6 groups =>
    let (start, length) := zeroRun groups
    if length < 2 then '[' :: groupChars groups ++ [']']
    else
      '[' :: groupChars (groups.take start) ++
        (':' :: ':' :: groupChars (groups.drop (start + length))) ++ [']']

end Host

end BearerAuth

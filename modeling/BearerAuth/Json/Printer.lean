import BearerAuth.Decimal.Shortest
import BearerAuth.Json.Basic
import BearerAuth.Text.Bytes

namespace BearerAuth.Json

def escapeChar (c : Char) : List Char :=
  if c = '"' then ['\\', '"']
  else if c = '\\' then ['\\', '\\']
  else if c = '\n' then ['\\', 'n']
  else if c = '\r' then ['\\', 'r']
  else if c = '\t' then ['\\', 't']
  else if c = '\x08' then ['\\', 'b']
  else if c = '\x0c' then ['\\', 'f']
  else if c.toNat < 0x20 then '\\' :: 'u' :: Text.Hex.digits4 c.toNat
  else [c]

def quoteChars (cs : List Char) : List Char := '"' :: cs.flatMap escapeChar ++ ['"']

/-- The digits of a binary number: with a point where its decimal point stands among sixteen
digits or at most four zeros behind it, and with an exponent elsewhere. Whole numbers keep `.0`. -/
def doubleChars (x : Binary64) : List Char :=
  let sign := if x.negative then ['-'] else []
  if x.mantissa = 0 then sign ++ ['0', '.', '0']
  else
    let d := Decimal.shortest x
    let n : Int := d.digits.length
    if d.point ≤ -5 || 16 < d.point then sign ++ d.exponential
    else if n ≤ d.point then sign ++ d.positional ++ ['.', '0']
    else sign ++ d.positional

def numberChars : Number → List Char
  | .int i => (toString i).toList
  | .double x => doubleChars x

mutual

def chars : Json → List Char
  | .null => ['n', 'u', 'l', 'l']
  | .bool true => ['t', 'r', 'u', 'e']
  | .bool false => ['f', 'a', 'l', 's', 'e']
  | .number n => numberChars n
  | .string s => quoteChars s.toList
  | .array items => '[' :: (itemsChars items ++ [']'])
  | .object members => '\x7b' :: (membersChars members ++ ['\x7d'])

def itemsChars : List Json → List Char
  | [] => []
  | [v] => chars v
  | v :: w :: rest => chars v ++ ',' :: itemsChars (w :: rest)

def membersChars : List (String × Json) → List Char
  | [] => []
  | [(n, v)] => quoteChars n.toList ++ ':' :: chars v
  | (n, v) :: m :: rest =>
    quoteChars n.toList ++ ':' :: (chars v ++ ',' :: membersChars (m :: rest))

end

def text (v : Json) : String := String.ofList (chars v)

end BearerAuth.Json

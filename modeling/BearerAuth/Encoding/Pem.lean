import BearerAuth.Base64
import BearerAuth.Text.Basic
import BearerAuth.Text.Bytes

namespace BearerAuth.Encoding.Pem

/-- A labelled text of bytes. -/
structure Labelled where
  label : String
  bytes : List UInt8

/-- The elements before the first occurrence of a separator, and those after it. -/
def splitAt? (separator : List UInt8) : List UInt8 → Option (List UInt8 × List UInt8)
  | [] => if separator.isEmpty then some ([], []) else none
  | b :: rest =>
    if separator.isPrefixOf (b :: rest) then some ([], (b :: rest).drop separator.length)
    else (splitAt? separator rest).map fun (before, after) => (b :: before, after)

def ascii (s : String) : List UInt8 := s.toList.map fun c => UInt8.ofNat c.toNat

def isSpace (b : UInt8) : Bool := b == 32 || b == 9 || b == 10 || b == 13

def headersAndData (body : List UInt8) : List UInt8 × List UInt8 :=
  match splitAt? [10, 10] body with
  | some parts => parts
  | none => (splitAt? [13, 10, 13, 10] body).getD ([], body)

/-- The lines of a text, without their line ends. -/
def lines (cs : List Char) : List (List Char) :=
  let parts := cs.splitOn '\n'
  let parts := if parts.getLast? == some [] then parts.dropLast else parts
  parts.map fun l => if l.getLast? == some '\r' then l.dropLast else l

/-- The data symbols: each line without the blanks at its end. -/
def symbols (data : List UInt8) : Option (List UInt8) := do
  let text ← Text.Utf8.decode? data
  let kept := (lines text.toList).flatMap (Text.dropEndWhile Text.isBlankChar)
  return Text.Utf8.encode (String.ofList kept)

/-- Whether every header line has a name and a value. -/
def areHeaders (headers : List UInt8) : Bool :=
  match Text.Utf8.decode? headers with
  | none => false
  | some text => (lines text.toList).all (·.contains ':')

def read? (input : List UInt8) : Option Labelled := do
  let (_, rest) ← splitAt? (ascii "-----BEGIN ") input
  let (label, rest) ← splitAt? (ascii "-----") rest
  let (body, rest) ← splitAt? (ascii "-----END ") (rest.dropWhile isSpace)
  let (ending, _) ← splitAt? (ascii "-----") rest
  let label ← Text.Utf8.decode? label
  let ending ← Text.Utf8.decode? ending
  if label.isEmpty || label != ending then
    none
  let (headers, data) := headersAndData body
  let symbols ← symbols data
  let bytes ← (Base64.decode .standard .canonical symbols).toOption
  if !areHeaders headers then
    none
  return ⟨label, bytes⟩

end BearerAuth.Encoding.Pem

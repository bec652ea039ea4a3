import BearerAuth.Decimal.Shortest
import BearerAuth.Text.Bytes
import BearerAuth.Text.Basic

namespace BearerAuth

/-- A binary number, or one of the two things that are none. -/
inductive Toml.Float where
  | finite (x : Binary64)
  | infinite (negative : Bool)
  | nan (negative : Bool)
deriving DecidableEq, Repr

/-- A value. A date or a time is held as its canonical text; the entries of a table are in order of
their keys. -/
inductive Toml where
  | string (s : String)
  | integer (i : Int)
  | float (x : Toml.Float)
  | boolean (b : Bool)
  | moment (text : String)
  | array (items : List Toml)
  | table (entries : List (String × Toml))
deriving Inhabited

namespace Toml

/-- The text of a number that is no integer: positional, with a point. -/
def Float.text : Float → String
  | .infinite negative => if negative then "-inf" else "inf"
  | .nan negative => if negative then "-nan" else "nan"
  | .finite x =>
    let digits := if x.mantissa = 0 then ['0'] else (Decimal.shortest x).positional
    let whole := if digits.contains '.' then digits else digits ++ ['.', '0']
    String.ofList (if x.negative then '-' :: whole else whole)

/-- The characters of a key that needs no quotation marks. -/
def isBareChar (c : Char) : Bool := c.isAlphanum || c == '_' || c == '-'

/-- A control character that has to be written as an escape. -/
def isControl (c : Char) : Bool := (c.toNat < 0x20 && c != '\t' && c != '\n') || c.toNat == 0x7F

def longestRun (c : Char) (cs : List Char) : Nat :=
  (cs.foldl (fun (best, run) x => if x == c then (max best (run + 1), run + 1) else (best, 0))
    (0, 0)).1

/-- The escape of a character in a quoted text. Over several lines a line end stands for itself,
and so do two quotation marks in a row. -/
def escape (multiline : Bool) (quotes : Nat) (c : Char) : List Char :=
  match c with
  | '"' => if quotes ≤ (if multiline then 2 else 0) then ['"'] else ['\\', '"']
  | '\\' => ['\\', '\\']
  | '\n' => if multiline then ['\n'] else ['\\', 'n']
  | '\t' => ['\\', 't']
  | '\r' => ['\\', 'r']
  | '\x08' => ['\\', 'b']
  | '\x0c' => ['\\', 'f']
  | c =>
    if c.toNat < 0x20 || c.toNat == 0x7F then
      '\\' :: 'u' :: (Text.Hex.digits4 c.toNat).map Char.toUpper
    else [c]

def escapeAll (multiline : Bool) : Nat → List Char → List Char
  | _, [] => []
  | quotes, c :: rest =>
    let quotes := if c == '"' then quotes + 1 else 0
    let written := escape multiline quotes c
    written ++ escapeAll multiline (if written.length == 2 then 0 else quotes) rest

/-- A quoted text. The plainest of the four forms is taken that needs no escapes, if there is
one. -/
def quote (s : String) : String :=
  let cs := s.toList
  let control := cs.any isControl
  let backslash := cs.contains '\\'
  let newline := cs.contains '\n'
  let doubles := longestRun '"' cs
  let singles := longestRun '\x27' cs
  let lead := if newline then ['\n'] else []
  let text :=
    if !control && !backslash && doubles == 0 && !newline then
      '"' :: escapeAll false 0 cs ++ ['"']
    else if !control && singles == 0 && !newline then
      '\x27' :: cs ++ ['\x27']
    else if !control && !backslash && doubles ≤ 2 then
      ['"', '"', '"'] ++ lead ++ escapeAll true 0 cs ++ ['"', '"', '"']
    else if !control && singles ≤ 2 then
      ['\x27', '\x27', '\x27'] ++ lead ++ cs ++ ['\x27', '\x27', '\x27']
    else if newline then
      ['"', '"', '"'] ++ lead ++ escapeAll true 0 cs ++ ['"', '"', '"']
    else
      '"' :: escapeAll false 0 cs ++ ['"']
  String.ofList text

def keyText (key : String) : String :=
  let cs := key.toList
  if !cs.isEmpty && cs.all isBareChar then key
  else if cs.any isControl || cs.contains '\n' ||
      (cs.contains '\x27' && (cs.contains '"' || cs.contains '\\')) then
    String.ofList ('"' :: escapeAll false 0 cs ++ ['"'])
  else if cs.contains '"' || cs.contains '\\' then
    String.ofList ('\x27' :: cs ++ ['\x27'])
  else
    String.ofList ('"' :: escapeAll false 0 cs ++ ['"'])

/-- A table, or an array of which some item is a table. -/
inductive Rank where
  | plain
  | tables
  | table
deriving DecidableEq, Repr

def isTable : Toml → Bool
  | .table _ => true
  | _ => false

/-- The rank of a value among the entries of its table: tables come last. -/
def rank : Toml → Rank
  | .table _ => .table
  | .array items => if items.any isTable then .tables else .plain
  | _ => .plain

mutual

def text : Toml → String
  | .string s => quote s
  | .integer i => toString i
  | .float x => x.text
  | .boolean b => if b then "true" else "false"
  | .moment t => t
  | .array items => "[" ++ Text.join ", " (itemTexts items) ++ "]"
  | .table entries =>
    let parts := entryTexts entries
    let ordered := [Rank.plain, .tables, .table].flatMap fun r =>
      (parts.filter (·.1 == r)).map Prod.snd
    if ordered.isEmpty then "\x7b\x7d" else "\x7b " ++ Text.join ", " ordered ++ " \x7d"

def itemTexts : List Toml → List String
  | [] => []
  | v :: rest => text v :: itemTexts rest

/-- The texts of entries with the ranks of their values. -/
def entryTexts : List (String × Toml) → List (Rank × String)
  | [] => []
  | (key, v) :: rest => (rank v, keyText key ++ " = " ++ text v) :: entryTexts rest

end

end Toml

end BearerAuth

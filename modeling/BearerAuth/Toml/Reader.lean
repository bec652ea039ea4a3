import BearerAuth.Text.Bytes
import BearerAuth.Toml.Basic

namespace BearerAuth.Toml

/-- A reader of some thing at the start of a text. -/
abbrev Reader (α : Type) := List Char → Option (α × List Char)

def isDigit (c : Char) : Bool := '0' ≤ c && c ≤ '9'

def isBlank (c : Char) : Bool := c == ' ' || c == '\t'

/-- The text from its first character that is no blank within a line. -/
def skipBlanks (s : List Char) : List Char := s.dropWhile isBlank

def lineEnd? : List Char → Option (List Char)
  | '\n' :: r => some r
  | '\r' :: '\n' :: r => some r
  | _ => none

/-- Whether a character may stand in a comment, and between quotation marks on one line. -/
def isText (c : Char) : Bool := c == '\t' || (0x20 ≤ c.toNat && c.toNat != 0x7F)

/-- The text after a comment, if there is one. -/
def skipComment (s : List Char) : List Char :=
  match s with
  | '#' :: r => r.dropWhile isText
  | s => s

/-- The text after blanks, comments and line ends. -/
def skipLines (s : List Char) : List Char :=
  let r := skipComment (skipBlanks s)
  match lineEnd? r with
  | some t => if t.length < s.length then skipLines t else t
  | none => r
termination_by s.length

def charOf? (n : Nat) : Option Char :=
  if n < 0xD800 || (0xDFFF < n && n < 0x110000) then some (Char.ofNat n) else none

def readCodePoint (digits : Nat) : Reader Char := fun s => do
  if s.length < digits then
    none
  let n ← (s.take digits).foldlM (fun n c => (Text.Hex.value? c).map (n * 16 + ·)) 0
  return (← charOf? n, s.drop digits)

def readEscape : Reader Char
  | 'b' :: r => some ('\x08', r)
  | 't' :: r => some ('\t', r)
  | 'n' :: r => some ('\n', r)
  | 'f' :: r => some ('\x0c', r)
  | 'r' :: r => some ('\r', r)
  | 'e' :: r => some ('\x1b', r)
  | '"' :: r => some ('"', r)
  | '\\' :: r => some ('\\', r)
  | 'x' :: r => readCodePoint 2 r
  | 'u' :: r => readCodePoint 4 r
  | 'U' :: r => readCodePoint 8 r
  | _ => none

def readBasic (s : List Char) : Option (List Char × List Char) :=
  match s with
  | [] => none
  | '"' :: r => some ([], r)
  | '\\' :: r => do
    let (c, t) ← readEscape r
    if t.length ≤ r.length then
      let (cs, t) ← readBasic t
      return (c :: cs, t)
    else none
  | c :: r =>
    if isText c then (readBasic r).map fun (cs, t) => (c :: cs, t) else none
termination_by s.length

def readLiteral : List Char → Option (List Char × List Char)
  | [] => none
  | c :: r =>
    if c == '\x27' then some ([], r)
    else if isText c then (readLiteral r).map fun (cs, t) => (c :: cs, t)
    else none

/-- The marks at the start of a text. At most five of them close a text over several lines: all but
the last three belong to it. -/
def closing? (mark : Char) (s : List Char) : Option (List Char × List Char) :=
  let run := (s.takeWhile (· == mark)).length
  if 3 ≤ run then
    let extra := min run 5 - 3
    some (List.replicate extra mark, s.drop (extra + 3))
  else none

/-- The text after blanks and line ends, at least one of these, that follow a backslash. -/
def skipContinuation? (s : List Char) : Option (List Char) := do
  let r ← lineEnd? (skipBlanks s)
  return r.dropWhile fun c => isBlank c || c == '\n' || c == '\r'

/-- Reads a text over several lines up to its closing marks. -/
def readLongBasic (s : List Char) : Option (List Char × List Char) :=
  match closing? '"' s with
  | some closed => some closed
  | none =>
    match s with
    | [] => none
    | '\\' :: r =>
      match skipContinuation? r with
      | some t => if t.length ≤ r.length then readLongBasic t else none
      | none => do
        let (c, t) ← readEscape r
        if t.length ≤ r.length then
          let (cs, t) ← readLongBasic t
          return (c :: cs, t)
        else none
    | '\r' :: '\n' :: r => (readLongBasic r).map fun (cs, t) => ('\r' :: '\n' :: cs, t)
    | c :: r =>
      if isText c || c == '\n' then (readLongBasic r).map fun (cs, t) => (c :: cs, t) else none
termination_by s.length

/-- Reads a literal text over several lines up to its closing marks. -/
def readLongLiteral (s : List Char) : Option (List Char × List Char) :=
  match closing? '\x27' s with
  | some closed => some closed
  | none =>
    match s with
    | [] => none
    | '\r' :: '\n' :: r => (readLongLiteral r).map fun (cs, t) => ('\r' :: '\n' :: cs, t)
    | c :: r =>
      if isText c || c == '\n' then (readLongLiteral r).map fun (cs, t) => (c :: cs, t) else none

def dropLineEnd (s : List Char) : List Char := (lineEnd? s).getD s

/-- Reads a quoted text of one of the four forms. -/
def readString (s : List Char) : Option (List Char × List Char) :=
  match s with
  | '"' :: '"' :: '"' :: r => readLongBasic (dropLineEnd r)
  | '"' :: r => readBasic r
  | '\x27' :: '\x27' :: '\x27' :: r => readLongLiteral (dropLineEnd r)
  | '\x27' :: r => readLiteral r
  | _ => none

/-- Reads one name of a key; a quoted name is on one line. -/
def readName (s : List Char) : Option (String × List Char) :=
  match s with
  | '"' :: r => (readBasic r).map fun (cs, t) => (String.ofList cs, t)
  | '\x27' :: r => (readLiteral r).map fun (cs, t) => (String.ofList cs, t)
  | s =>
    match s.takeWhile isBareChar with
    | [] => none
    | name => some (String.ofList name, s.drop name.length)

/-- Reads a key: names with dots between them. -/
def readKey (s : List Char) : Option (List String × List Char) := do
  let (name, r) ← readName s
  match skipBlanks r with
  | '.' :: t =>
    let t := skipBlanks t
    if t.length < s.length then
      let (names, r) ← readKey t
      return (name :: names, r)
    else none
  | r => return ([name], r)
termination_by s.length

/-- The value of digits in a base, single underscores between them left out. -/
def digits? (base : Nat) : List Char → Option Nat
  | [] => none
  | c :: rest => do
    let start ← digit c
    go start rest
where
  /-- The value of a digit. -/
  digit (c : Char) : Option Nat := (Text.Hex.value? c).filter (· < base)
  /-- Takes further digits into a number. -/
  go (n : Nat) : List Char → Option Nat
    | [] => some n
    | '_' :: c :: rest => do go (n * base + (← digit c)) rest
    | c :: rest => do go (n * base + (← digit c)) rest

/-- The sign in front of a number, and the rest. -/
def signed : List Char → Bool × List Char
  | '-' :: r => (true, r)
  | '+' :: r => (false, r)
  | r => (false, r)

def hasLeadingZero (ds : List Char) : Bool := ds.head? == some '0' && 1 < ds.length

def int64? (i : Int) : Option Toml :=
  if -0x8000000000000000 ≤ i && i < 0x8000000000000000 then some (.integer i) else none

def integer? (word : List Char) : Option Toml :=
  match word with
  | '0' :: 'x' :: r => (digits? 16 r).bind fun n => int64? n
  | '0' :: 'o' :: r => (digits? 8 r).bind fun n => int64? n
  | '0' :: 'b' :: r => (digits? 2 r).bind fun n => int64? n
  | word =>
    let (negative, r) := signed word
    if hasLeadingZero r then none
    else (digits? 10 r).bind fun n => int64? (if negative then -(n : Int) else n)

/-- The binary number nearest to `n · 10 ^ e`; none if it is too great. -/
def nearest? (negative : Bool) (n : Nat) (e : Int) : Option Binary64 :=
  let size := (Nat.toDigits 10 n).length
  if n = 0 || (size : Int) + e < -400 then some (.zero negative)
  else if 400 < (size : Int) + e then none
  else if e < 0 then Binary64.ofRatio negative n (Nat.pow 10 (-e).toNat)
  else Binary64.ofNat negative (n * Nat.pow 10 e.toNat)

/-- The number of a word with a fraction or an exponent, or the word for what is no number. -/
def float? (word : List Char) : Option Toml := do
  let (negative, r) := signed word
  if r == "inf".toList then
    return .float (.infinite negative)
  if r == "nan".toList then
    return .float (.nan negative)
  let whole := r.takeWhile fun c => isDigit c || c == '_'
  if hasLeadingZero whole then
    none
  let n ← digits? 10 whole
  let r := r.drop whole.length
  let (n, places, r) ←
    match r with
    | '.' :: r =>
      let fraction := r.takeWhile fun c => isDigit c || c == '_'
      let _ ← digits? 10 fraction
      let ds := fraction.filter isDigit
      some (ds.foldl (fun n c => n * 10 + (c.toNat - 48)) n, ds.length, r.drop fraction.length)
    | r => some (n, 0, r)
  let e : Int ←
    match r with
    | [] => if places = 0 then none else some 0
    | c :: r =>
      if c == 'e' || c == 'E' then
        let (down, ds) := signed r
        (digits? 10 ds).map fun e => if down then -(e : Int) else e
      else none
  (nearest? negative n (e - places)).map fun x => .float (.finite x)

def twoDigits? (a b : Char) : Option Nat :=
  if isDigit a && isDigit b then some ((a.toNat - 48) * 10 + (b.toNat - 48)) else none

def daysOf (year month : Nat) : Nat :=
  if month == 2 then
    if year % 4 == 0 && (year % 100 != 0 || year % 400 == 0) then 29 else 28
  else if month == 4 || month == 6 || month == 9 || month == 11 then 30
  else 31

/-- Reads a date; its canonical text is as it is written. -/
def readDate : Reader (List Char)
  | y₁ :: y₂ :: y₃ :: y₄ :: '-' :: m₁ :: m₂ :: '-' :: d₁ :: d₂ :: r => do
    let year := (← twoDigits? y₁ y₂) * 100 + (← twoDigits? y₃ y₄)
    let month ← twoDigits? m₁ m₂
    let day ← twoDigits? d₁ d₂
    if 1 ≤ month && month ≤ 12 && 1 ≤ day && day ≤ daysOf year month then
      return ([y₁, y₂, y₃, y₄, '-', m₁, m₂, '-', d₁, d₂], r)
    else none
  | _ => none

/-- Reads the fraction of a second: nine digits of it count, and needless zeros do not. -/
def readFraction : Reader (List Char)
  | '.' :: r =>
    match r.takeWhile isDigit with
    | [] => none
    | ds =>
      let kept := ((ds.take 9).reverse.dropWhile (· == '0')).reverse
      some ('.' :: (if kept.isEmpty then ['0'] else kept), r.drop ds.length)
  | r => some ([], r)

/-- Reads a time of day; the seconds may be left out. -/
def readTime : Reader (List Char)
  | h₁ :: h₂ :: ':' :: m₁ :: m₂ :: r => do
    let hour ← twoDigits? h₁ h₂
    let minute ← twoDigits? m₁ m₂
    if 23 < hour || 59 < minute then
      none
    let text := [h₁, h₂, ':', m₁, m₂]
    match r with
    | ':' :: s₁ :: s₂ :: r =>
      let second ← twoDigits? s₁ s₂
      if 60 < second then
        none
      let (fraction, r) ← readFraction r
      return (text ++ [':', s₁, s₂] ++ fraction, r)
    | r => return (text, r)
  | _ => none

/-- Reads the distance from universal time, if it is there. -/
def readOffset : Reader (List Char)
  | 'Z' :: r => some (['Z'], r)
  | 'z' :: r => some (['Z'], r)
  | c :: h₁ :: h₂ :: ':' :: m₁ :: m₂ :: r => do
    let hours ← twoDigits? h₁ h₂
    let minutes ← twoDigits? m₁ m₂
    if (c != '+' && c != '-') || 23 < hours || 59 < minutes then
      none
    let sign := if hours == 0 && minutes == 0 then '+' else c
    return ([sign, h₁, h₂, ':', m₁, m₂], r)
  | r => some ([], r)

/-- The date, the time or both of a word. -/
def moment? (word : List Char) : Option Toml :=
  let done (text rest : List Char) : Option Toml :=
    if rest.isEmpty then some (.moment (String.ofList text)) else none
  match readDate word with
  | some (date, []) => done date []
  | some (date, c :: r) => do
    if c != 'T' && c != 't' && c != ' ' then
      none
    let (time, r) ← readTime r
    let (offset, r) ← readOffset r
    done (date ++ 'T' :: time ++ offset) r
  | none => do
    let (time, r) ← readTime word
    done time r

def isWordChar (c : Char) : Bool :=
  c.isAlphanum || c == '_' || c == '+' || c == '-' || c == '.' || c == ':'

/-- Reads a word. A date and the time after it, with a blank between them, are one word. -/
def readWord (s : List Char) : List Char × List Char :=
  let word := s.takeWhile isWordChar
  match readDate word, s.drop word.length with
  | some (_, []), ' ' :: c :: r =>
    if isDigit c then
      let time := (c :: r).takeWhile isWordChar
      (word ++ ' ' :: time, (c :: r).drop time.length)
    else (word, ' ' :: c :: r)
  | _, rest => (word, rest)

def word? (word : List Char) : Option Toml :=
  if word == "true".toList then some (.boolean true)
  else if word == "false".toList then some (.boolean false)
  else (integer? word).or ((float? word).or (moment? word))

/-- Reads items up to a closing mark, with commas between them and perhaps one behind the last. -/
def readItems {α : Type} (close : Char) (item : Reader α) (s : List Char) :
    Option (List α × List Char) :=
  match skipLines s with
  | [] => none
  | c :: r =>
    if c == close then some ([], r)
    else do
      let (v, r) ← item (c :: r)
      match skipLines r with
      | ',' :: t =>
        if t.length < s.length then
          let (vs, t) ← readItems close item t
          return (v :: vs, t)
        else none
      | c :: t => if c == close then return ([v], t) else none
      | [] => none
termination_by s.length

end BearerAuth.Toml

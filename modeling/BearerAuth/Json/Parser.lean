import BearerAuth.Json.Basic
import BearerAuth.Text.Bytes

namespace BearerAuth.Json

/-- What is wrong with a text that is not JSON. -/
inductive Fault where
  | endOfText
  | value
  | number
  | range
  | character
  | escape
  | separator
  | key
  | depth
  | trailing
  | encoding
deriving DecidableEq, Repr

def Fault.message : Fault → String
  | .endOfText => "the text ends too early"
  | .value => "expected value"
  | .number => "invalid number"
  | .range => "number out of range"
  | .character => "control character in a string"
  | .escape => "invalid escape"
  | .separator => "expected a separator or the end of the list"
  | .key => "a key must be a string"
  | .depth => "values nest too deeply"
  | .trailing => "trailing characters"
  | .encoding => "invalid unicode code point"

/-- A fault and the number of characters left where it was found. -/
structure Failure where
  fault : Fault
  left : Nat
deriving DecidableEq, Repr

/-- A fault and its place, lines and columns counted from one. -/
structure ParseError where
  fault : Fault
  line : Nat
  column : Nat
deriving DecidableEq, Repr

/-- The wording of an error: the fault, then its place. -/
def ParseError.message (e : ParseError) : String :=
  s!"{e.fault.message} at line {e.line} column {e.column}"

/-- What a reader says of a document, by its bytes, that is JSON but not of the form that is asked
for: of the header or the payload of a token, or of the configuration of a provider. The words are
the reader's own. -/
structure FormMessages where
  header : List UInt8 → String := fun _ => ""
  payload : List UInt8 → String := fun _ => ""
  provider : List UInt8 → String := fun _ => ""

def Failure.locate (text : List Char) (f : Failure) : ParseError :=
  let seen := text.take (text.length - f.left)
  let column := (seen.reverse.takeWhile (· != '\n')).length
  ⟨f.fault, seen.count '\n' + 1, column⟩

/-- What is left of a text after something was read from it. -/
abbrev Rest (s : List Char) := { r : List Char // r.length < s.length }

/-- A reader of some thing at the start of a text. -/
abbrev Reader (α : Type) := (s : List Char) → Except Failure (α × Rest s)

def fail {α : Type} (fault : Fault) (s : List Char) : Except Failure α := .error ⟨fault, s.length⟩

def isSpace (c : Char) : Bool := c == ' ' || c == '\n' || c == '\t' || c == '\r'

/-- The text from its first character that is no blank. -/
def skipSpace (s : List Char) : List Char := s.dropWhile isSpace

theorem length_dropWhile_le {α : Type} (p : α → Bool) (l : List α) :
    (l.dropWhile p).length ≤ l.length := by
  induction l with
  | nil => simp
  | cons a l ih =>
    rw [List.dropWhile_cons]
    split
    · exact Nat.le_succ_of_le ih
    · exact Nat.le_refl _

theorem length_skipSpace_le (s : List Char) : (skipSpace s).length ≤ s.length :=
  length_dropWhile_le isSpace s

def isDigit (c : Char) : Bool := '0' ≤ c && c ≤ '9'

/-- Takes further digits into a number as long as it fits 64 bits; the digits left follow. -/
def accumulate (n : Nat) : List Char → Nat × List Char
  | [] => (n, [])
  | c :: rest =>
    let n' := n * 10 + (c.toNat - 48)
    if n' < 0x10000000000000000 then accumulate n' rest else (n, c :: rest)

/-- Divides by a power of ten in steps of at most `10 ^ 308`, rounding at each. -/
def scaleDown (x : Binary64) (k : Nat) : Option Binary64 :=
  if k ≤ 308 then x.overPowerOfTen k
  else if x.mantissa = 0 then some x
  else (x.overPowerOfTen 308).bind fun y => scaleDown y (k - 308)
termination_by k
decreasing_by omega

/-- The binary number of a 64-bit significand and a power of ten: the significand is rounded, then
the product or quotient. -/
def double? (negative : Bool) (significand : Nat) (exponent : Int) : Option Binary64 := do
  let x ← Binary64.ofNat negative significand
  if exponent < 0 then scaleDown x (-exponent).toNat
  else if x.mantissa = 0 then some x
  else if 308 < exponent then none
  else x.timesPowerOfTen exponent.toNat

/-- The parts of a number as written. -/
structure NumberText where
  negative : Bool
  whole : List Char
  fraction : Option (List Char)
  exponent : Option (Bool × List Char)

/-- The number that is written, unless it is out of range. Digits beyond 64 bits count only as
places. -/
def NumberText.value? (t : NumberText) : Option Number :=
  let (significand, skipped) := accumulate 0 t.whole
  match t.fraction, t.exponent, skipped with
  | none, none, [] =>
    if !t.negative then some (.int significand)
    else if significand = 0 || 0x8000000000000000 < significand then
      (Binary64.ofNat true significand).map .double
    else some (.int (-(significand : Int)))
  | fraction, exponent, skipped =>
    let digits := fraction.getD []
    let (significand, ignored) := accumulate significand digits
    let places : Int := (skipped.length : Int) - (digits.length - ignored.length : Nat)
    match exponent with
    | none => (double? t.negative significand places).map .double
    | some (negativeExponent, ds) =>
      let e : Nat := ds.foldl (fun n c => n * 10 + (c.toNat - 48)) 0
      if 0x80000000 ≤ e then
        if significand = 0 || negativeExponent then some (.double (.zero t.negative)) else none
      else
        let power : Int := if negativeExponent then places - e else places + e
        (double? t.negative significand power).map .double

/-- Reads the digits of a fraction or of an exponent; there is at least one. -/
def readDigits (s : List Char) : Except Failure (List Char × List Char) :=
  match s.takeWhile isDigit with
  | [] => fail (if s.isEmpty then .endOfText else .number) s
  | ds => .ok (ds, s.dropWhile isDigit)

/-- Reads the parts of a number; the text left is not yet known to be shorter. -/
def readNumberText (s : List Char) : Except Failure (NumberText × List Char) := do
  let (negative, s₁) := match s with
    | '-' :: r => (true, r)
    | r => (false, r)
  let (whole, s₂) ← readDigits s₁
  if whole.head? == some '0' && 1 < whole.length then
    fail .number s₂
  let (fraction, s₃) ← match s₂ with
    | '.' :: r => (readDigits r).map fun (ds, r') => (some ds, r')
    | r => pure (none, r)
  let (exponent, s₄) ← match s₃ with
    | c :: r =>
      if c == 'e' || c == 'E' then
        let (negativeExponent, r') := match r with
          | '-' :: r' => (true, r')
          | '+' :: r' => (false, r')
          | r' => (false, r')
        (readDigits r').map fun (ds, r'') => (some (negativeExponent, ds), r'')
      else pure (none, s₃)
    | [] => pure (none, s₃)
  return (⟨negative, whole, fraction, exponent⟩, s₄)

def readNumber : Reader Number := fun s => do
  let (t, r) ← readNumberText s
  if h : r.length < s.length then
    match t.value? with
    | some n => return (n, ⟨r, h⟩)
    | none => fail .range r
  else
    fail .number s

def readUnit : Reader Nat := fun s =>
  match s with
  | a :: b :: c :: d :: r =>
    match Text.Hex.value? a, Text.Hex.value? b, Text.Hex.value? c, Text.Hex.value? d with
    | some a, some b, some c, some d =>
      .ok (((a * 16 + b) * 16 + c) * 16 + d, ⟨r, by simp only [List.length_cons]; omega⟩)
    | _, _, _, _ => fail .escape s
  | _ => fail .endOfText s

/-- The character that a backslash and a letter or mark stand for. -/
def simpleEscape? (c : Char) : Option Char :=
  match c with
  | '"' => some '"'
  | '\\' => some '\\'
  | '/' => some '/'
  | 'b' => some '\x08'
  | 'f' => some '\x0c'
  | 'n' => some '\n'
  | 'r' => some '\r'
  | 't' => some '\t'
  | _ => none

def readEscape : Reader Char := fun s =>
  match s with
  | [] => fail .endOfText s
  | 'u' :: r => do
    let (high, ⟨r₁, h₁⟩) ← readUnit r
    if 0xDC00 ≤ high && high < 0xE000 then
      fail .escape r₁
    else if 0xD800 ≤ high && high < 0xDC00 then
      match r₁, h₁ with
      | '\\' :: 'u' :: r₂, h₁ =>
        let (low, ⟨r₃, h₃⟩) ← readUnit r₂
        if 0xDC00 ≤ low && low < 0xE000 then
          return (Char.ofNat (0x10000 + (high - 0xD800) * 0x400 + (low - 0xDC00)),
            ⟨r₃, by simp only [List.length_cons] at h₁ ⊢; omega⟩)
        else
          fail .escape r₃
      | r₁, _ => fail .escape r₁
    else
      return (Char.ofNat high, ⟨r₁, by simp only [List.length_cons]; omega⟩)
  | c :: r =>
    match simpleEscape? c with
    | some c => return (c, ⟨r, by simp⟩)
    | none => fail .escape r

/-- Reads the characters of a string after its opening quotation mark. -/
def readStringTail (s : List Char) : Except Failure (List Char × Rest s) :=
  match s with
  | [] => fail .endOfText []
  | '"' :: r => .ok ([], ⟨r, by simp⟩)
  | '\\' :: r => do
    let (c, ⟨r₁, h₁⟩) ← readEscape r
    let (cs, ⟨r₂, h₂⟩) ← readStringTail r₁
    return (c :: cs, ⟨r₂, by simp only [List.length_cons]; omega⟩)
  | c :: r =>
    if c.toNat < 0x20 then
      fail .character r
    else do
      let (cs, ⟨r₁, h₁⟩) ← readStringTail r
      return (c :: cs, ⟨r₁, by simp only [List.length_cons]; omega⟩)
termination_by s.length

/-- Reads the items of an array after its opening bracket and the blanks behind it. -/
def readArrayTail (item : Reader Json) (s : List Char) : Except Failure (List Json × Rest s) := do
  let (v, ⟨r, h⟩) ← item s
  match hs : skipSpace r with
  | ']' :: t =>
    return ([v], ⟨t, by
      have := length_skipSpace_le r
      simp only [hs, List.length_cons] at this
      omega⟩)
  | ',' :: t =>
    have ht : t.length < s.length := by
      have := length_skipSpace_le r
      simp only [hs, List.length_cons] at this
      omega
    have hk : (skipSpace t).length < s.length := Nat.lt_of_le_of_lt (length_skipSpace_le t) ht
    let (vs, ⟨t', h'⟩) ← readArrayTail item (skipSpace t)
    return (v :: vs, ⟨t', Nat.lt_trans h' hk⟩)
  | [] => fail .endOfText []
  | c :: t => fail .separator (c :: t)
termination_by s.length

/-- Reads a member: a string, a colon and a value. -/
def readMember (item : Reader Json) : Reader (String × Json) := fun s =>
  match s with
  | '"' :: r => do
    let (name, ⟨r₁, h₁⟩) ← readStringTail r
    match hs : skipSpace r₁ with
    | ':' :: t =>
      let (v, ⟨r₂, h₂⟩) ← item (skipSpace t)
      return ((String.ofList name, v), ⟨r₂, by
        have := length_skipSpace_le r₁
        have := length_skipSpace_le t
        simp only [hs, List.length_cons] at *
        omega⟩)
    | [] => fail .endOfText []
    | c :: t => fail .separator (c :: t)
  | [] => fail .endOfText []
  | s => fail .key s

/-- Reads the members of an object after its opening brace and the blanks behind it. -/
def readObjectTail (item : Reader Json) (s : List Char) : Except Failure (Members × Rest s) := do
  let (m, ⟨r, h⟩) ← readMember item s
  match hs : skipSpace r with
  | '\x7d' :: t =>
    return ([m], ⟨t, by
      have := length_skipSpace_le r
      simp only [hs, List.length_cons] at this
      omega⟩)
  | ',' :: t =>
    have ht : t.length < s.length := by
      have := length_skipSpace_le r
      simp only [hs, List.length_cons] at this
      omega
    have hk : (skipSpace t).length < s.length := Nat.lt_of_le_of_lt (length_skipSpace_le t) ht
    let (ms, ⟨t', h'⟩) ← readObjectTail item (skipSpace t)
    return (m :: ms, ⟨t', Nat.lt_trans h' hk⟩)
  | [] => fail .endOfText []
  | c :: t => fail .separator (c :: t)
termination_by s.length

/-- Reads a value at the start of the text, no blank before it; containers nest as deep as the
first argument says. -/
def readValue : Nat → Reader Json
  | depth, s =>
    match s with
    | [] => fail .endOfText []
    | 'n' :: 'u' :: 'l' :: 'l' :: r => .ok (.null, ⟨r, by simp only [List.length_cons]; omega⟩)
    | 't' :: 'r' :: 'u' :: 'e' :: r => .ok (.bool true, ⟨r, by simp only [List.length_cons]; omega⟩)
    | 'f' :: 'a' :: 'l' :: 's' :: 'e' :: r =>
      .ok (.bool false, ⟨r, by simp only [List.length_cons]; omega⟩)
    | '"' :: r => do
      let (cs, ⟨r', h⟩) ← readStringTail r
      return (.string (String.ofList cs), ⟨r', by simp only [List.length_cons]; omega⟩)
    | '[' :: r =>
      match depth with
      | 0 => fail .depth r
      | depth + 1 =>
        match hs : skipSpace r with
        | ']' :: t => .ok (.array [], ⟨t, by
            have := length_skipSpace_le r
            simp only [hs, List.length_cons] at *
            omega⟩)
        | t => do
          let (vs, ⟨t', h⟩) ← readArrayTail (readValue depth) t
          return (.array vs, ⟨t', by
            have := length_skipSpace_le r
            rw [hs] at this
            simp only [List.length_cons]
            omega⟩)
    | '\x7b' :: r =>
      match depth with
      | 0 => fail .depth r
      | depth + 1 =>
        match hs : skipSpace r with
        | '\x7d' :: t => .ok (.object [], ⟨t, by
            have := length_skipSpace_le r
            simp only [hs, List.length_cons] at *
            omega⟩)
        | t => do
          let (ms, ⟨t', h⟩) ← readObjectTail (readValue depth) t
          return (.object ms, ⟨t', by
            have := length_skipSpace_le r
            rw [hs] at this
            simp only [List.length_cons]
            omega⟩)
    | c :: r =>
      if c == '-' || isDigit c then
        (readNumber (c :: r)).map fun (n, rest) => (.number n, rest)
      else
        fail .value (c :: r)

def maxDepth : Nat := 127

def documentChars (s : List Char) : Except Failure Json := do
  let (v, ⟨r, _⟩) ← readValue maxDepth (skipSpace s)
  if (skipSpace r).isEmpty then return v else fail .trailing r

/-- The document of a text, repeated members included. -/
def document (s : String) : Except ParseError Json :=
  (documentChars s.toList).mapError (Failure.locate s.toList)

/-- The document of bytes, which must be UTF-8. -/
def documentOfBytes (bytes : List UInt8) : Except ParseError Json :=
  match Text.Utf8.decode? bytes with
  | some s => document s
  | none => .error ⟨.encoding, 1, bytes.length⟩

/-- The value of a text, its members in order. -/
def read (s : String) : Except ParseError Json := (document s).map canonical

/-- The value of bytes, its members in order. -/
def readBytes (bytes : List UInt8) : Except ParseError Json := (documentOfBytes bytes).map canonical

end BearerAuth.Json

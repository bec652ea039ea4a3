namespace BearerAuth.Text

/-- Lower case of the letters `A` to `Z`. -/
def asciiLower (s : String) : String := String.ofList (s.toList.map Char.toLower)

/-- Upper case of the letters `a` to `z`. -/
def asciiUpper (s : String) : String := String.ofList (s.toList.map Char.toUpper)

/-- Equality of character lists up to the case of ASCII letters. -/
def sameLetters (a b : List Char) : Bool := a.map Char.toLower == b.map Char.toLower

/-- Equality of texts up to the case of ASCII letters. -/
def equalsIgnoringCase (a b : String) : Bool := sameLetters a.toList b.toList

/-- The characters of the Unicode property `White_Space`. -/
def isBlankChar (c : Char) : Bool :=
  let n := c.toNat
  (9 ≤ n && n ≤ 13) || n == 0x20 || n == 0x85 || n == 0xA0 || n == 0x1680 ||
    (0x2000 ≤ n && n ≤ 0x200A) || n == 0x2028 || n == 0x2029 || n == 0x202F ||
    n == 0x205F || n == 0x3000

/-- The list without its last elements that satisfy `p`. -/
def dropEndWhile {α : Type} (p : α → Bool) (xs : List α) : List α :=
  (xs.reverse.dropWhile p).reverse

def trimChars (cs : List Char) : List Char :=
  dropEndWhile isBlankChar (cs.dropWhile isBlankChar)

def trim (s : String) : String := String.ofList (trimChars s.toList)

def isBlank (s : String) : Bool := (trim s).isEmpty

/-- The trimmed text, unless it is blank. -/
def nonBlank? (s : String) : Option String :=
  let t := trim s
  if t.isEmpty then none else some t

@[simp] theorem toList_trim (s : String) : (trim s).toList = trimChars s.toList := by
  simp [trim]

/-- The parts of a text between the occurrences of a separator; there is always at least one. -/
def split (separator : Char) (s : String) : List String :=
  (s.toList.splitOn separator).map String.ofList

def chomp (s : String) : String :=
  match s.toList.getLast? with
  | some '\r' => String.ofList s.toList.dropLast
  | _ => s

/-- The lines of a text, without their ends. -/
def lines (s : String) : List String := (split '\n' s).map chomp

def join (separator : String) (parts : List String) : String := separator.intercalate parts

/-- The text before the first occurrence of a separator and the text after it. -/
def splitOnce (separator : Char) (s : String) : Option (String × String) :=
  let cs := s.toList
  match cs.dropWhile (· != separator) with
  | [] => none
  | _ :: rest => some (String.ofList (cs.takeWhile (· != separator)), String.ofList rest)

/-- The trimmed parts of a comma separated list that are not blank. -/
def commaList (s : String) : List String := (split ',' s).filterMap nonBlank?

end BearerAuth.Text

/-!
Patterns with the wildcard `*`, which stands for any text within one line. A pattern is followed
through a text by what may still have to be matched: after each character a list of ends of the
pattern, none of them twice.
-/

namespace BearerAuth.Wildcard

/-- The ends of a pattern that are left after a character is matched. -/
def derive : List Char → Char → List (List Char)
  | [], _ => []
  | x :: rest, c =>
    if x = '*' then (if c = '\n' then [] else [x :: rest]) ++ derive rest c
    else if x = c then [rest] else []

def acceptsEmpty (pattern : List Char) : Bool := pattern.all (· == '*')

def acceptsAny : List (List Char) → List Char → Bool
  | patterns, [] => patterns.any acceptsEmpty
  | patterns, c :: text => acceptsAny (patterns.flatMap (derive · c)).eraseDups text

def accepts (pattern text : List Char) : Bool := acceptsAny [pattern] text

/-- A text that a pattern is turned into when each wildcard is replaced by some text within a
line. -/
inductive Fills : List Char → List Char → Prop where
  | nil : Fills [] []
  | literal {c : Char} {pattern text : List Char} (h : c ≠ '*') :
    Fills pattern text → Fills (c :: pattern) (c :: text)
  | wildcard {pattern text : List Char} (run : List Char) (h : '\n' ∉ run) :
    Fills pattern text → Fills ('*' :: pattern) (run ++ text)

end BearerAuth.Wildcard

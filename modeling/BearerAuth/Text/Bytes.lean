/-!
Texts as bytes. `decode?` reads well-formed UTF-8 only; `decodeLossy` reads anything and writes the
replacement character for each ill-formed part, a part being the longest start of a well-formed
sequence or else a single byte.
-/

namespace BearerAuth.Text.Utf8

def encode (s : String) : List UInt8 := s.toUTF8.toList

/-- The outcome of reading one character: the character or an ill-formed part, and the bytes left
after it. -/
inductive Step where
  | char (c : Char) (rest : List UInt8)
  | illFormed (rest : List UInt8)

def isContinuation (low high : Nat) (b : UInt8) : Bool := low ≤ b.toNat && b.toNat ≤ high

/-- Reads one character of two to four bytes. `first` holds the bits of the leading byte, `low` and
`high` bound the second byte, and `more` counts the continuation bytes after the second. -/
def multibyte (first low high more : Nat) (rest : List UInt8) : Step :=
  match rest with
  | b :: rest₁ =>
    if isContinuation low high b then
      let v₁ := first * 64 + (b.toNat - 0x80)
      match more, rest₁ with
      | 0, _ => .char (Char.ofNat v₁) rest₁
      | more' + 1, c :: rest₂ =>
        if isContinuation 0x80 0xBF c then
          let v₂ := v₁ * 64 + (c.toNat - 0x80)
          match more', rest₂ with
          | 0, _ => .char (Char.ofNat v₂) rest₂
          | _ + 1, d :: rest₃ =>
            if isContinuation 0x80 0xBF d then
              .char (Char.ofNat (v₂ * 64 + (d.toNat - 0x80))) rest₃
            else .illFormed rest₂
          | _ + 1, [] => .illFormed []
        else .illFormed rest₁
      | _ + 1, [] => .illFormed []
    else .illFormed rest
  | [] => .illFormed []

/-- Reads the character that starts with the byte `b`. -/
def step (b : UInt8) (rest : List UInt8) : Step :=
  let n := b.toNat
  if n < 0x80 then .char (Char.ofNat n) rest
  else if n < 0xC2 then .illFormed rest
  else if n < 0xE0 then multibyte (n - 0xC0) 0x80 0xBF 0 rest
  else if n == 0xE0 then multibyte 0 0xA0 0xBF 1 rest
  else if n == 0xED then multibyte 13 0x80 0x9F 1 rest
  else if n < 0xF0 then multibyte (n - 0xE0) 0x80 0xBF 1 rest
  else if n == 0xF0 then multibyte 0 0x90 0xBF 2 rest
  else if n < 0xF4 then multibyte (n - 0xF0) 0x80 0xBF 2 rest
  else if n == 0xF4 then multibyte 4 0x80 0x8F 2 rest
  else .illFormed rest

def Step.rest : Step → List UInt8
  | .char _ r => r
  | .illFormed r => r

theorem rest_multibyte_le (first low high more : Nat) (rest : List UInt8) :
    (multibyte first low high more rest).rest.length ≤ rest.length := by
  unfold multibyte
  repeat' split
  all_goals simp [Step.rest]
  all_goals omega

theorem rest_ite_le {c : Prop} [Decidable c] {x y : Step} {n : Nat} (hx : x.rest.length ≤ n)
    (hy : y.rest.length ≤ n) : (if c then x else y).rest.length ≤ n := by
  split
  · exact hx
  · exact hy

/-- A step leaves no more than what follows the leading byte. -/
theorem rest_step_le (b : UInt8) (rest : List UInt8) :
    (step b rest).rest.length ≤ rest.length := by
  have h := rest_multibyte_le
  unfold step
  repeat' apply rest_ite_le
  all_goals first | exact h .. | exact Nat.le_refl rest.length

def decodeChars? (bytes : List UInt8) : Option (List Char) :=
  match bytes with
  | [] => some []
  | b :: rest =>
    have := rest_step_le b rest
    match h : step b rest with
    | .illFormed _ => none
    | .char c r =>
      have : r.length ≤ rest.length := by simpa [h, Step.rest] using this
      (decodeChars? r).map (c :: ·)
termination_by bytes.length

def decode? (bytes : List UInt8) : Option String := (decodeChars? bytes).map String.ofList

/-- The characters of any bytes, with U+FFFD for each ill-formed part. -/
def decodeLossyChars (bytes : List UInt8) : List Char :=
  match bytes with
  | [] => []
  | b :: rest =>
    have := rest_step_le b rest
    match h : step b rest with
    | .illFormed r =>
      have : r.length ≤ rest.length := by simpa [h, Step.rest] using this
      '\ufffd' :: decodeLossyChars r
    | .char c r =>
      have : r.length ≤ rest.length := by simpa [h, Step.rest] using this
      c :: decodeLossyChars r
termination_by bytes.length

/-- The text of any bytes, with U+FFFD for each ill-formed part. -/
def decodeLossy (bytes : List UInt8) : String := String.ofList (decodeLossyChars bytes)

end BearerAuth.Text.Utf8

namespace BearerAuth.Text.Hex

def digit (n : Nat) : Char := if n < 10 then Char.ofNat (48 + n) else Char.ofNat (87 + n)

def value? (c : Char) : Option Nat :=
  if '0' ≤ c && c ≤ '9' then some (c.toNat - 48)
  else if 'a' ≤ c && c ≤ 'f' then some (c.toNat - 87)
  else if 'A' ≤ c && c ≤ 'F' then some (c.toNat - 55)
  else none

def encode (bytes : List UInt8) : String :=
  String.ofList (bytes.flatMap fun b => [digit (b.toNat / 16), digit (b.toNat % 16)])

def decodeChars? : List Char → Option (List UInt8)
  | [] => some []
  | [_] => none
  | a :: b :: rest => do
    let high ← value? a
    let low ← value? b
    let bytes ← decodeChars? rest
    return UInt8.ofNat (high * 16 + low) :: bytes

def decode? (s : String) : Option (List UInt8) := decodeChars? s.toList

def digits4 (n : Nat) : List Char :=
  [n / 4096 % 16, n / 256 % 16, n / 16 % 16, n % 16].map digit

end BearerAuth.Text.Hex

import BearerAuth.Json.Printer
import BearerAuth.Proofs.Text.Trimming

namespace BearerAuth

namespace Decimal

/-- The characters that numbers are written with. -/
def IsNumberChar (c : Char) : Prop :=
  c.isDigit = true ∨ c = '-' ∨ c = '+' ∨ c = '.' ∨ c = 'e'

theorem IsNumberChar.not_blank {c : Char} (h : IsNumberChar c) : Text.isBlankChar c = false := by
  rcases h with hdigit | rfl | rfl | rfl | rfl
  · have hcode : 48 ≤ c.toNat ∧ c.toNat ≤ 57 := by
      simpa [Char.isDigit, UInt32.le_iff_toNat_le] using hdigit
    simp [Text.isBlankChar]
    omega
  all_goals decide

theorem isNumberChar_digitsOf (n : Nat) : ∀ c ∈ digitsOf n, IsNumberChar c := by
  intro c hc
  exact Or.inl (Nat.isDigit_of_mem_toDigits (by decide) (by decide) hc)

theorem isNumberChar_replicate (n : Nat) : ∀ c ∈ List.replicate n '0', IsNumberChar c := by
  intro c hc
  rw [List.eq_of_mem_replicate hc]
  exact Or.inl rfl

/-- The digits of a shortest decimal are digits of a natural, but for zeros at the end. -/
theorem isNumberChar_shortest (x : Binary64) : ∀ c ∈ (shortest x).digits, IsNumberChar c := by
  intro c hc
  unfold shortest at hc
  dsimp only at hc
  split at hc
  · apply isNumberChar_digitsOf _ c
    exact List.mem_reverse.mp ((List.dropWhile_sublist _).mem (List.mem_reverse.mp hc))
  · exact isNumberChar_digitsOf _ c hc

variable {d : Scientific}

theorem isNumberChar_positional (h : ∀ c ∈ d.digits, IsNumberChar c) :
    ∀ c ∈ d.positional, IsNumberChar c := by
  have hzero : IsNumberChar '0' := Or.inl rfl
  have hpoint : IsNumberChar '.' := by simp [IsNumberChar]
  unfold Scientific.positional
  dsimp only
  split
  · exact List.forall_mem_cons.mpr ⟨hzero, List.forall_mem_cons.mpr ⟨hpoint,
      List.forall_mem_append.mpr ⟨isNumberChar_replicate _, h⟩⟩⟩
  · split
    · exact List.forall_mem_append.mpr ⟨h, isNumberChar_replicate _⟩
    · -- the digits stand on both sides of the point
      have hbefore : ∀ c ∈ d.digits.take d.point.toNat, IsNumberChar c :=
        fun c hc => h c (List.mem_of_mem_take hc)
      have hafter : ∀ c ∈ d.digits.drop d.point.toNat, IsNumberChar c :=
        fun c hc => h c (List.mem_of_mem_drop hc)
      exact List.forall_mem_append.mpr ⟨hbefore, List.forall_mem_cons.mpr ⟨hpoint, hafter⟩⟩

theorem isNumberChar_exponential (h : ∀ c ∈ d.digits, IsNumberChar c) :
    ∀ c ∈ d.exponential, IsNumberChar c := by
  have hmark : IsNumberChar 'e' := by simp [IsNumberChar]
  have hsign (negative : Prop) [Decidable negative] :
      IsNumberChar (if negative then '-' else '+') := by
    split <;> simp [IsNumberChar]
  unfold Scientific.exponential
  refine List.forall_mem_append.mpr ⟨?_, List.forall_mem_cons.mpr ⟨hmark,
    List.forall_mem_cons.mpr ⟨hsign _, isNumberChar_digitsOf _⟩⟩⟩
  split
  · next hdigits => exact hdigits ▸ h
  · next c rest hrest hdigits =>
    rw [hdigits, List.forall_mem_cons] at h
    have hpoint : IsNumberChar '.' := by simp [IsNumberChar]
    exact List.forall_mem_cons.mpr ⟨h.1, List.forall_mem_cons.mpr ⟨hpoint, h.2⟩⟩
  · exact List.forall_mem_singleton.mpr (Or.inl rfl)

theorem positional_ne_nil (d : Scientific) : d.positional ≠ [] := by
  unfold Scientific.positional
  dsimp only
  split
  · exact List.cons_ne_nil _ _
  · split
    · -- a point behind the digits is behind some place at least
      apply List.ne_nil_of_length_pos
      rw [List.length_append, List.length_replicate]
      omega
    · exact List.append_ne_nil_of_right_ne_nil _ (List.cons_ne_nil _ _)

theorem exponential_ne_nil (d : Scientific) : d.exponential ≠ [] := by
  unfold Scientific.exponential
  exact List.append_ne_nil_of_right_ne_nil _ (List.cons_ne_nil _ _)

end Decimal

namespace Json

open Decimal

theorem isNumberChar_doubleChars (x : Binary64) : ∀ c ∈ doubleChars x, IsNumberChar c := by
  have hsign : ∀ c ∈ (if x.negative then ['-'] else []), IsNumberChar c := by
    split <;> simp [IsNumberChar]
  have hwhole : ∀ c ∈ ['.', '0'], IsNumberChar c := by simp [IsNumberChar]
  have hpositional := isNumberChar_positional (isNumberChar_shortest x)
  unfold doubleChars
  dsimp only
  split
  · exact List.forall_mem_append.mpr ⟨hsign, by simp [IsNumberChar]⟩
  · split
    · exact List.forall_mem_append.mpr
        ⟨hsign, isNumberChar_exponential (isNumberChar_shortest x)⟩
    · split
      · exact List.forall_mem_append.mpr
          ⟨List.forall_mem_append.mpr ⟨hsign, hpositional⟩, hwhole⟩
      · exact List.forall_mem_append.mpr ⟨hsign, hpositional⟩

theorem doubleChars_ne_nil (x : Binary64) : doubleChars x ≠ [] := by
  unfold doubleChars
  dsimp only
  split
  · exact List.append_ne_nil_of_right_ne_nil _ (List.cons_ne_nil _ _)
  · split
    · exact List.append_ne_nil_of_right_ne_nil _ (exponential_ne_nil _)
    · split
      · exact List.append_ne_nil_of_right_ne_nil _ (List.cons_ne_nil _ _)
      · exact List.append_ne_nil_of_right_ne_nil _ (positional_ne_nil _)

/-- The text of an integer is its digits, behind a sign if it is negative. -/
theorem numberChars_int_cases (i : Int) :
    ∃ n, numberChars (.int i) = digitsOf n ∨ numberChars (.int i) = '-' :: digitsOf n := by
  unfold numberChars
  cases i with
  | ofNat m => exact ⟨m, Or.inl (String.toList_ofList ..)⟩
  | negSucc m =>
    refine ⟨m + 1, Or.inr ?_⟩
    have hdigits : (String.ofList (digitsOf (m + 1))).toList = digitsOf (m + 1) :=
      String.toList_ofList ..
    change ("-" ++ String.ofList (digitsOf (m + 1))).toList = _
    rw [String.toList_append, hdigits]
    rfl

theorem isNumberChar_numberChars (n : Number) : ∀ c ∈ numberChars n, IsNumberChar c := by
  cases n with
  | int i =>
    obtain ⟨m, hdigits | hsigned⟩ := numberChars_int_cases i
    · rw [hdigits]
      exact isNumberChar_digitsOf m
    · rw [hsigned]
      exact List.forall_mem_cons.mpr ⟨by simp [IsNumberChar], isNumberChar_digitsOf m⟩
  | double x => exact isNumberChar_doubleChars x

theorem numberChars_ne_nil (n : Number) : numberChars n ≠ [] := by
  cases n with
  | int i =>
    obtain ⟨m, hdigits | hsigned⟩ := numberChars_int_cases i
    · rw [hdigits]
      exact Nat.toDigits_ne_nil
    · rw [hsigned]
      exact List.cons_ne_nil _ _
  | double x => exact doubleChars_ne_nil x

/-- What stands between two marks begins and ends with them. -/
theorem trimmed_between {first last : Char} (hfirst : Text.isBlankChar first = false)
    (hlast : Text.isBlankChar last = false) (cs : List Char) :
    Text.Trimmed (String.ofList (first :: (cs ++ [last]))) where
  first c hc := by
    rw [String.toList_ofList, List.head?_cons, Option.mem_some_iff] at hc
    exact hc ▸ hfirst
  last c hc := by
    rw [String.toList_ofList, ← List.cons_append, List.getLast?_concat, Option.mem_some_iff] at hc
    exact hc ▸ hlast

theorem trimmed_of_forall {cs : List Char} (h : ∀ c ∈ cs, Text.isBlankChar c = false) :
    Text.Trimmed (String.ofList cs) where
  first c hc := by
    rw [String.toList_ofList] at hc
    exact h c (List.mem_of_mem_head? hc)
  last c hc := by
    rw [String.toList_ofList] at hc
    exact h c (List.mem_of_getLast? hc)

/-- The text of a value has no white space around it. -/
theorem trimmed_text (v : Json) : Text.Trimmed v.text := by
  unfold text
  cases v with
  | null => exact Text.trim_eq_self_iff.mp (by decide)
  | bool b => cases b <;> exact Text.trim_eq_self_iff.mp (by decide)
  | number n =>
    apply trimmed_of_forall
    intro c hc
    exact (isNumberChar_numberChars n c hc).not_blank
  | string s => exact trimmed_between (by decide) (by decide) _
  | array items => exact trimmed_between (by decide) (by decide) _
  | object members => exact trimmed_between (by decide) (by decide) _

theorem text_ne_empty (v : Json) : v.text ≠ "" := by
  have hchars : chars v ≠ [] := by
    cases v with
    | null => exact List.cons_ne_nil _ _
    | bool b => cases b <;> exact List.cons_ne_nil _ _
    | number n => exact numberChars_ne_nil n
    | string s => exact List.cons_ne_nil _ _
    | array items => exact List.cons_ne_nil _ _
    | object members => exact List.cons_ne_nil _ _
  intro hempty
  apply hchars
  have hlist := congrArg String.toList hempty
  rw [text, String.toList_ofList] at hlist
  exact hlist

end Json

end BearerAuth

import Mathlib.Data.List.DropRight
import BearerAuth.Text.Basic

namespace BearerAuth.Text

theorem dropEndWhile_eq_rdropWhile {α : Type} (p : α → Bool) (xs : List α) :
    dropEndWhile p xs = xs.rdropWhile p := rfl

theorem dropEndWhile_eq_self_of_getLast? {α : Type} {p : α → Bool} {xs : List α}
    (h : ∀ x ∈ xs.getLast?, p x = false) : dropEndWhile p xs = xs := by
  rw [dropEndWhile_eq_rdropWhile, List.rdropWhile_eq_self_iff]
  intro hne
  rw [h _ (List.getLast?_eq_some_getLast hne)]
  exact Bool.false_ne_true

theorem dropEndWhile_eq_self {α : Type} {p : α → Bool} {xs : List α}
    (h : ∀ x ∈ xs, p x = false) : dropEndWhile p xs = xs :=
  dropEndWhile_eq_self_of_getLast? fun x hx => h x (List.mem_of_getLast? hx)

theorem not_of_getLast?_dropEndWhile {α : Type} {p : α → Bool} {xs : List α} {x : α}
    (h : x ∈ (dropEndWhile p xs).getLast?) : p x = false := by
  rw [dropEndWhile_eq_rdropWhile] at h
  obtain ⟨hne, rfl⟩ := List.mem_getLast?_eq_getLast h
  exact Bool.eq_false_iff.mpr (List.rdropWhile_last_not p xs hne)

/-- What is dropped at the end leaves the beginning as it is. -/
theorem dropEndWhile_isPrefix {α : Type} (p : α → Bool) (xs : List α) :
    dropEndWhile p xs <+: xs :=
  List.rdropWhile_prefix p xs

theorem head?_of_isPrefix {α : Type} {xs ys : List α} (h : xs <+: ys) {x : α}
    (hx : x ∈ xs.head?) : x ∈ ys.head? := by
  obtain ⟨rest, rfl⟩ := h
  rw [List.head?_append, hx]
  rfl

variable {cs tail : List Char} {c : Char}

theorem trimChars_eq_self (hfirst : ∀ c ∈ cs.head?, isBlankChar c = false)
    (hlast : ∀ c ∈ cs.getLast?, isBlankChar c = false) : trimChars cs = cs := by
  have hstart : cs.dropWhile isBlankChar = cs := by
    cases cs with
    | nil => rfl
    | cons first rest =>
      have hfirst : isBlankChar first = false := hfirst first rfl
      exact List.dropWhile_cons_of_neg (Bool.eq_false_iff.mp hfirst)
  unfold trimChars
  rw [hstart]
  exact dropEndWhile_eq_self_of_getLast? hlast

theorem not_isBlankChar_of_head? (h : c ∈ (trimChars cs).head?) : isBlankChar c = false := by
  have hfirst : c ∈ (cs.dropWhile isBlankChar).head? :=
    head?_of_isPrefix (dropEndWhile_isPrefix isBlankChar _) h
  have hne : cs.dropWhile isBlankChar ≠ [] := by
    intro hnil
    rw [hnil] at hfirst
    exact nomatch hfirst
  rw [List.head?_eq_some_head hne, Option.mem_some_iff] at hfirst
  rw [← hfirst]
  exact List.head_dropWhile_not isBlankChar hne

theorem not_isBlankChar_of_getLast? (h : c ∈ (trimChars cs).getLast?) : isBlankChar c = false :=
  not_of_getLast?_dropEndWhile h

theorem trimChars_of_forall (h : ∀ c ∈ cs, isBlankChar c = false) : trimChars cs = cs :=
  trimChars_eq_self (fun c hc => h c (List.mem_of_head? hc))
    (fun c hc => h c (List.mem_of_getLast? hc))

/-- Two texts without white space around them have none around them together. -/
theorem trimChars_append (hcs : trimChars cs = cs) (htail : trimChars tail = tail) :
    trimChars (cs ++ tail) = cs ++ tail := by
  apply trimChars_eq_self
  · intro c hc
    rw [List.head?_append] at hc
    rcases Option.or_eq_some_iff.mp hc with hfirst | ⟨-, hfirst⟩
    · rw [← hcs] at hfirst
      exact not_isBlankChar_of_head? hfirst
    · rw [← htail] at hfirst
      exact not_isBlankChar_of_head? hfirst
  · intro c hc
    rw [List.getLast?_append] at hc
    rcases Option.or_eq_some_iff.mp hc with hlast | ⟨-, hlast⟩
    · rw [← htail] at hlast
      exact not_isBlankChar_of_getLast? hlast
    · rw [← hcs] at hlast
      exact not_isBlankChar_of_getLast? hlast

/-- What ends without white space is only trimmed at its beginning, and so is what comes of it when
a character that is not blank is appended. -/
theorem trimChars_concat (hlast : ∀ c ∈ cs.getLast?, isBlankChar c = false)
    (hc : isBlankChar c = false) : trimChars (cs ++ [c]) = trimChars cs ++ [c] := by
  have hstart : (cs ++ [c]).dropWhile isBlankChar = cs.dropWhile isBlankChar ++ [c] := by
    rw [List.dropWhile_append]
    split
    · next hempty =>
      rw [List.isEmpty_iff.mp hempty, List.nil_append]
      exact List.dropWhile_cons_of_neg (Bool.eq_false_iff.mp hc)
    · rfl
  have hend : dropEndWhile isBlankChar (cs.dropWhile isBlankChar) = cs.dropWhile isBlankChar := by
    apply dropEndWhile_eq_self_of_getLast?
    intro last hmem
    obtain ⟨before, hsplit⟩ := List.dropWhile_suffix (l := cs) isBlankChar
    rw [← hsplit, List.getLast?_append, hmem] at hlast
    exact hlast last rfl
  unfold trimChars
  rw [hstart, hend]
  apply dropEndWhile_eq_self_of_getLast?
  intro last hmem
  rw [List.getLast?_concat] at hmem
  exact Option.some.inj hmem ▸ hc

@[simp] theorem trimChars_trimChars (cs : List Char) : trimChars (trimChars cs) = trimChars cs :=
  trimChars_eq_self (fun _ hc => not_isBlankChar_of_head? hc)
    (fun _ hc => not_isBlankChar_of_getLast? hc)

/-- A text is what is left of it after trimming, with white space around. -/
theorem exists_trimChars (cs : List Char) :
    ∃ before after, (∀ c ∈ before, isBlankChar c = true) ∧ (∀ c ∈ after, isBlankChar c = true) ∧
      cs = before ++ trimChars cs ++ after := by
  let rest := cs.dropWhile isBlankChar
  have hend : trimChars cs ++ rest.rtakeWhile isBlankChar = rest :=
    List.rdropWhile_append_rtakeWhile
  refine ⟨cs.takeWhile isBlankChar, rest.rtakeWhile isBlankChar,
    fun c hc => List.mem_takeWhile_imp hc, fun c hc => List.mem_rtakeWhile_imp hc, ?_⟩
  rw [List.append_assoc, hend]
  exact List.takeWhile_append_dropWhile.symm

theorem trimChars_eq_nil_iff : trimChars cs = [] ↔ ∀ c ∈ cs, isBlankChar c = true := by
  constructor
  · intro hnil c hc
    obtain ⟨before, after, hbefore, hafter, hcs⟩ := exists_trimChars cs
    rw [hnil, List.append_nil] at hcs
    rw [hcs, List.mem_append] at hc
    exact hc.elim (hbefore c) (hafter c)
  · intro hblank
    have hstart : cs.dropWhile isBlankChar = [] := List.dropWhile_eq_nil_iff.mpr hblank
    unfold trimChars
    rw [hstart]
    rfl

/-- White space in front of a text is trimmed away. -/
theorem trimChars_append_left (h : ∀ c ∈ tail, isBlankChar c = true) (cs : List Char) :
    trimChars (tail ++ cs) = trimChars cs := by
  unfold trimChars
  rw [List.dropWhile_append_of_pos h]

/-- So is white space after it. -/
theorem trimChars_append_right (h : ∀ c ∈ tail, isBlankChar c = true) (cs : List Char) :
    trimChars (cs ++ tail) = trimChars cs := by
  unfold trimChars dropEndWhile
  rw [List.dropWhile_append]
  split
  · next hempty =>
    rw [List.isEmpty_iff.mp hempty, List.dropWhile_eq_nil_iff.mpr h]
  · rw [List.reverse_append, List.dropWhile_append_of_pos]
    intro c hc
    exact h c (List.mem_reverse.mp hc)

@[simp] theorem trim_trim (s : String) : trim (trim s) = trim s :=
  String.toList_inj.mp (by simp)

theorem nonBlank?_eq (s : String) :
    nonBlank? s = if trim s = "" then none else some (trim s) := by
  simp only [nonBlank?, String.isEmpty_iff]

theorem nonBlank?_eq_some_iff {s t : String} :
    nonBlank? s = some t ↔ t ≠ "" ∧ trim s = t := by
  rw [nonBlank?_eq]
  split
  · next hblank =>
    refine iff_of_false (by simp) ?_
    rintro ⟨hne, rfl⟩
    exact hne hblank
  · next hne =>
    rw [Option.some_inj]
    refine ⟨?_, And.right⟩
    rintro rfl
    exact ⟨hne, rfl⟩

theorem nonBlank?_trim (s : String) : nonBlank? (trim s) = nonBlank? s := by
  rw [nonBlank?_eq, nonBlank?_eq, trim_trim]

theorem mem_of_mem_trim {s : String} (h : c ∈ (trim s).toList) : c ∈ s.toList := by
  obtain ⟨before, after, -, -, hs⟩ := exists_trimChars s.toList
  rw [toList_trim] at h
  rw [hs, List.mem_append, List.mem_append]
  exact Or.inl (Or.inr h)

/-- A text that neither begins nor ends with white space. -/
structure Trimmed (s : String) : Prop where
  first : ∀ c ∈ s.toList.head?, isBlankChar c = false
  last : ∀ c ∈ s.toList.getLast?, isBlankChar c = false

/-- These are the texts that trimming leaves as they are. -/
theorem trim_eq_self_iff {s : String} : trim s = s ↔ Trimmed s := by
  constructor
  · intro htrim
    have hchars : trimChars s.toList = s.toList := by rw [← toList_trim, htrim]
    constructor
    · intro c hc
      rw [← hchars] at hc
      exact not_isBlankChar_of_head? hc
    · intro c hc
      rw [← hchars] at hc
      exact not_isBlankChar_of_getLast? hc
  · intro htrimmed
    apply String.toList_inj.mp
    rw [toList_trim]
    exact trimChars_eq_self htrimmed.first htrimmed.last

theorem trimmed_trim (s : String) : Trimmed (trim s) := by
  apply trim_eq_self_iff.mp
  exact trim_trim s

end BearerAuth.Text

import Mathlib.Data.List.Basic
import BearerAuth.Exclusion.Wildcard

namespace BearerAuth.Wildcard

theorem fills_literal_iff {x : Char} (hx : x ≠ '*') (pattern text : List Char) :
    Fills (x :: pattern) text ↔ ∃ rest, text = x :: rest ∧ Fills pattern rest := by
  constructor
  · intro h
    cases h with
    | literal _ hrest => exact ⟨_, rfl, hrest⟩
    | wildcard run _ _ => exact absurd rfl hx
  · rintro ⟨rest, rfl, hrest⟩
    exact .literal hx hrest

theorem fills_wildcard_iff (pattern text : List Char) :
    Fills ('*' :: pattern) text ↔
      ∃ run rest, text = run ++ rest ∧ '\n' ∉ run ∧ Fills pattern rest := by
  constructor
  · intro h
    cases h with
    | literal hx _ => exact absurd rfl hx
    | wildcard run hrun hrest => exact ⟨run, _, rfl, hrun, hrest⟩
  · rintro ⟨run, rest, rfl, hrun, hrest⟩
    exact .wildcard run hrun hrest

/-- In front of a character, a wildcard takes the character in or stands for nothing. -/
theorem fills_wildcard_cons_iff (pattern : List Char) (c : Char) (text : List Char) :
    Fills ('*' :: pattern) (c :: text) ↔
      (c ≠ '\n' ∧ Fills ('*' :: pattern) text) ∨ Fills pattern (c :: text) := by
  constructor
  · intro h
    obtain ⟨run, rest, htext, hrun, hrest⟩ := (fills_wildcard_iff pattern _).mp h
    cases run with
    | nil =>
      rw [List.nil_append] at htext
      exact Or.inr (htext ▸ hrest)
    | cons d run =>
      -- the character is the first of the run that the wildcard stands for
      obtain ⟨rfl, rfl⟩ := List.cons_eq_cons.mp htext
      rw [List.mem_cons, not_or] at hrun
      exact Or.inl ⟨Ne.symm hrun.1, .wildcard run hrun.2 hrest⟩
  · rintro (⟨hc, h⟩ | h)
    · obtain ⟨run, rest, rfl, hrun, hrest⟩ := (fills_wildcard_iff pattern text).mp h
      have hmore : '\n' ∉ c :: run := by
        rw [List.mem_cons, not_or]
        exact ⟨Ne.symm hc, hrun⟩
      exact .wildcard (c :: run) hmore hrest
    · exact .wildcard [] List.not_mem_nil h

/-- Nothing but wildcards can be replaced by the empty text. -/
theorem fills_nil_iff (pattern : List Char) :
    Fills pattern [] ↔ acceptsEmpty pattern = true := by
  unfold acceptsEmpty
  induction pattern with
  | nil => exact iff_of_true .nil rfl
  | cons x pattern ih =>
    rw [List.all_cons, Bool.and_eq_true, beq_iff_eq, ← ih]
    by_cases hx : x = '*'
    · subst hx
      rw [fills_wildcard_iff]
      constructor
      · rintro ⟨run, rest, hempty, -, hrest⟩
        obtain ⟨-, rfl⟩ := List.append_eq_nil_iff.mp hempty.symm
        exact ⟨rfl, hrest⟩
      · rintro ⟨-, hrest⟩
        exact ⟨[], [], rfl, List.not_mem_nil, hrest⟩
    · rw [fills_literal_iff hx]
      exact iff_of_false (fun ⟨_, hempty, _⟩ => nomatch hempty) (fun h => hx h.1)

/-- A text is accepted by a pattern when the text after its first character is accepted by one of
the ends that this character leaves. -/
theorem fills_cons_iff (pattern : List Char) (c : Char) (text : List Char) :
    Fills pattern (c :: text) ↔ ∃ left ∈ derive pattern c, Fills left text := by
  induction pattern with
  | nil => exact iff_of_false nofun nofun
  | cons x pattern ih =>
    rw [derive]
    by_cases hx : x = '*'
    · subst hx
      rw [fills_wildcard_cons_iff, ih, if_pos rfl]
      -- either the wildcard is still open, or an end of the pattern after it is followed
      simp only [List.mem_append, or_and_right, exists_or]
      apply or_congr _ Iff.rfl
      by_cases hc : c = '\n'
      · simp [hc]
      · simp [hc]
    · rw [fills_literal_iff hx, if_neg hx]
      by_cases hc : x = c
      · simp [hc]
      · simp [hc, Ne.symm hc]

theorem acceptsAny_iff (patterns : List (List Char)) (text : List Char) :
    acceptsAny patterns text = true ↔ ∃ pattern ∈ patterns, Fills pattern text := by
  -- what may still have to be matched changes with each character
  induction text generalizing patterns with
  | nil =>
    rw [acceptsAny, List.any_eq_true]
    simp only [fills_nil_iff]
  | cons c text ih =>
    have hends (left : List Char) :
        left ∈ (patterns.flatMap (derive · c)).eraseDups ↔
          ∃ pattern ∈ patterns, left ∈ derive pattern c := by
      rw [List.mem_eraseDups, List.mem_flatMap]
    rw [acceptsAny, ih]
    simp only [hends, fills_cons_iff]
    constructor
    · rintro ⟨left, ⟨pattern, hpattern, hleft⟩, hfills⟩
      exact ⟨pattern, hpattern, left, hleft, hfills⟩
    · rintro ⟨pattern, hpattern, left, hleft, hfills⟩
      exact ⟨left, ⟨pattern, hpattern, hleft⟩, hfills⟩

theorem accepts_iff_fills (pattern text : List Char) :
    accepts pattern text = true ↔ Fills pattern text := by
  unfold accepts
  rw [acceptsAny_iff]
  simp only [List.mem_singleton, exists_eq_left]

/-- What a pattern says literally is in every text that it is turned into. -/
theorem Fills.mem {pattern text : List Char} (h : Fills pattern text) {c : Char}
    (hc : c ∈ pattern) (hliteral : c ≠ '*') : c ∈ text := by
  induction h with
  | nil => exact nomatch hc
  | literal _ _ ih =>
    rcases List.mem_cons.mp hc with rfl | hrest
    · exact List.mem_cons_self
    · exact List.mem_cons_of_mem _ (ih hrest)
  | wildcard run _ _ ih =>
    rcases List.mem_cons.mp hc with rfl | hrest
    · exact absurd rfl hliteral
    · exact List.mem_append_right run (ih hrest)

end BearerAuth.Wildcard

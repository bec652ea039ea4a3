import BearerAuth.Proofs.Text.Segments
import BearerAuth.Proofs.Text.Trimming

namespace BearerAuth.Text

variable {sep : Char}

/-- White space after a list is white space after its last part. -/
theorem map_trimChars_splitOn_append_right {tail : List Char} (hsep : isBlankChar sep = false)
    (h : ∀ c ∈ tail, isBlankChar c = true) (cs : List Char) :
    ((cs ++ tail).splitOn sep).map trimChars = (cs.splitOn sep).map trimChars := by
  have hnot : sep ∉ tail := fun hmem => Bool.false_ne_true (hsep.symm.trans (h sep hmem))
  obtain ⟨init, last, hcs, hlonger⟩ := splitOn_append sep cs tail hnot
  rw [hcs, hlonger, List.map_append, List.map_append, List.map_singleton, List.map_singleton,
    trimChars_append_right h]

/-- White space in front of a list is white space in front of its first part. -/
theorem map_trimChars_splitOn_append_left {before : List Char} (hsep : isBlankChar sep = false)
    (h : ∀ c ∈ before, isBlankChar c = true) (cs : List Char) :
    ((before ++ cs).splitOn sep).map trimChars = (cs.splitOn sep).map trimChars := by
  induction before with
  | nil => rfl
  | cons c before ih =>
    obtain ⟨hc, hbefore⟩ := List.forall_mem_cons.mp h
    have hne : (c == sep) = false := by
      rw [beq_eq_false_iff_ne]
      rintro rfl
      exact Bool.false_ne_true (hsep.symm.trans hc)
    rw [List.cons_append, List.splitOn_cons_eq_if_modifyHead, hne, if_neg Bool.false_ne_true,
      ← ih hbefore]
    cases (before ++ cs).splitOn sep with
    | nil => rfl
    | cons part parts =>
      have hpart : trimChars (c :: part) = trimChars part :=
        trimChars_append_left (List.forall_mem_singleton.mpr hc) part
      rw [List.modifyHead_cons, List.map_cons, List.map_cons, hpart]

/-- A list that is trimmed as a whole has the same parts, trimmed. -/
theorem map_trim_split_trim (hsep : isBlankChar sep = false) (s : String) :
    (split sep (trim s)).map trim = (split sep s).map trim := by
  have htrim (cs : List (List Char)) :
      (cs.map String.ofList).map trim = (cs.map trimChars).map String.ofList := by
    simp [trim]
  obtain ⟨before, after, hbefore, hafter, hs⟩ := exists_trimChars s.toList
  unfold split
  rw [htrim, htrim, toList_trim]
  conv_rhs => rw [hs]
  rw [map_trimChars_splitOn_append_right hsep hafter,
    map_trimChars_splitOn_append_left hsep hbefore]

/-- The parts of a list are made of its characters, and none of them holds the separator. -/
theorem mem_of_mem_splitOn {cs part : List Char} (h : part ∈ cs.splitOn sep) {c : Char}
    (hc : c ∈ part) : c ∈ cs ∧ c ≠ sep := by
  -- each character is put before the first part, or opens one when it is the separator
  induction cs generalizing part with
  | nil =>
    rw [List.splitOn_nil, List.mem_singleton] at h
    rw [h] at hc
    exact absurd hc List.not_mem_nil
  | cons first cs ih =>
    rw [List.splitOn_cons_eq_if_modifyHead] at h
    obtain ⟨head, tail, hparts⟩ := List.exists_cons_of_ne_nil (List.splitOn_ne_nil sep cs)
    have hlater (other : List Char) (hother : other ∈ cs.splitOn sep) (hmem : c ∈ other) :
        c ∈ first :: cs ∧ c ≠ sep := by
      obtain ⟨hcs, hne⟩ := ih hother hmem
      exact ⟨List.mem_cons_of_mem first hcs, hne⟩
    by_cases hfirst : (first == sep) = true
    · rw [if_pos hfirst] at h
      rcases List.mem_cons.mp h with rfl | hrest
      · exact absurd hc List.not_mem_nil
      · exact hlater part hrest hc
    · rw [if_neg hfirst, hparts, List.modifyHead_cons] at h
      rcases List.mem_cons.mp h with rfl | hrest
      · rcases List.mem_cons.mp hc with rfl | hhead
        · exact ⟨List.mem_cons_self, fun heq => hfirst (beq_iff_eq.mpr heq)⟩
        · exact hlater head (hparts ▸ List.mem_cons_self) hhead
      · exact hlater part (hparts ▸ List.mem_cons_of_mem _ hrest) hc

theorem mem_of_mem_split {s part : String} (h : part ∈ split sep s) {c : Char}
    (hc : c ∈ part.toList) : c ∈ s.toList ∧ c ≠ sep := by
  obtain ⟨chars, hchars, rfl⟩ := List.mem_map.mp h
  rw [String.toList_ofList] at hc
  exact mem_of_mem_splitOn hchars hc

theorem toList_join (parts : List String) :
    (join (String.singleton sep) parts).toList = [sep].intercalate (parts.map String.toList) := by
  unfold join
  rw [String.toList_intercalate, String.toList_singleton]

/-- A list has no characters but those of its parts and the separator. -/
theorem mem_toList_join (sep : Char) {parts : List String} {c : Char}
    (h : c ∈ (join (String.singleton sep) parts).toList) :
    c = sep ∨ ∃ part ∈ parts, c ∈ part.toList := by
  rw [toList_join] at h
  induction parts with
  | nil => exact absurd h List.not_mem_nil
  | cons part parts ih =>
    cases parts with
    | nil =>
      rw [List.map_singleton, List.intercalate_singleton] at h
      exact Or.inr ⟨part, List.mem_cons_self, h⟩
    | cons next parts =>
      rw [List.map_cons, List.map_cons, List.intercalate_cons_cons, ← List.map_cons] at h
      simp only [List.mem_append, List.mem_singleton] at h
      rcases h with (hpart | hsep) | hrest
      · exact Or.inr ⟨part, List.mem_cons_self, hpart⟩
      · exact Or.inl hsep
      · rcases ih hrest with hsep | ⟨other, hother, hmem⟩
        · exact Or.inl hsep
        · exact Or.inr ⟨other, List.mem_cons_of_mem part hother, hmem⟩

/-- What is joined by a separator is split at it again. -/
theorem split_join {parts : List String} (hne : parts ≠ [])
    (h : ∀ part ∈ parts, sep ∉ part.toList) :
    split sep (join (String.singleton sep) parts) = parts := by
  unfold split
  rw [toList_join, List.splitOn_intercalate]
  · rw [List.map_map]
    simp
  · intro part hmem
    obtain ⟨text, htext, rfl⟩ := List.mem_map.mp hmem
    exact h text htext
  · exact fun hnil => hne (List.map_eq_nil_iff.mp hnil)

end BearerAuth.Text

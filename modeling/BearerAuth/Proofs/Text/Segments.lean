import BearerAuth.Text.Basic

namespace BearerAuth.Text

/-- What holds no separator goes to the last part. -/
theorem splitOn_append (sep : Char) (l t : List Char) (ht : sep ∉ t) :
    ∃ init last, l.splitOn sep = init ++ [last] ∧ (l ++ t).splitOn sep = init ++ [last ++ t] := by
  -- a character is put before the first part or opens one; the last part is the same in both
  induction l with
  | nil => exact ⟨[], [], rfl, List.splitOn_eq_singleton ht⟩
  | cons c l ih =>
    obtain ⟨init, last, hl, hlt⟩ := ih
    rw [List.cons_append, List.splitOn_cons_eq_if_modifyHead, List.splitOn_cons_eq_if_modifyHead,
      hl, hlt]
    by_cases hc : (c == sep) = true
    · exact ⟨[] :: init, last, by rw [if_pos hc]; rfl, by rw [if_pos hc]; rfl⟩
    · rw [if_neg hc, if_neg hc]
      cases init with
      | nil => exact ⟨[], c :: last, rfl, rfl⟩
      | cons part init => exact ⟨(c :: part) :: init, last, rfl, rfl⟩

/-- Three parts with separators between them are the whole text. -/
theorem eq_of_split_eq_three {sep : Char} {s a b c : String} (h : split sep s = [a, b, c]) :
    s = a ++ String.singleton sep ++ b ++ String.singleton sep ++ c := by
  have hparts : s.toList.splitOn sep = [a.toList, b.toList, c.toList] := by
    have hmap := congrArg (List.map String.toList) h
    simpa [split, List.map_map, Function.comp_def] using hmap
  have hjoin : [sep].intercalate (s.toList.splitOn sep) = s.toList := List.intercalate_splitOn sep
  rw [hparts] at hjoin
  apply String.toList_inj.mp
  rw [← hjoin]
  simp [List.intercalate, List.intersperse]

/-- The characters of each of three parts are characters of the whole text. -/
theorem mem_of_mem_split_three {sep d : Char} {s a b c : String} (h : split sep s = [a, b, c])
    (hd : d ∈ a.toList ∨ d ∈ b.toList ∨ d ∈ c.toList) : d ∈ s.toList := by
  rw [eq_of_split_eq_three h]
  simp only [String.toList_append, List.mem_append]
  rcases hd with ha | hb | hc
  · exact Or.inl (Or.inl (Or.inl (Or.inl ha)))
  · exact Or.inl (Or.inl (Or.inr hb))
  · exact Or.inr hc

/-- A text without the separator is appended to the last of three parts. -/
theorem not_mem_of_split_three {sep d : Char} {s a b c : String} (h : split sep s = [a, b, c])
    (hsep : d ≠ sep) (ha : d ∉ a.toList) (hb : d ∉ b.toList) (hc : d ∉ c.toList) :
    d ∉ s.toList := by
  rw [eq_of_split_eq_three h]
  simp only [String.toList_append, String.toList_singleton, List.mem_append, List.mem_singleton,
    not_or]
  exact ⟨⟨⟨⟨ha, hsep⟩, hb⟩, hsep⟩, hc⟩

theorem split_append_eq_three {sep : Char} {s t a b c : String} (h : split sep s = [a, b, c])
    (ht : sep ∉ t.toList) : split sep (s ++ t) = [a, b, c ++ t] := by
  obtain ⟨init, last, hs, hst⟩ := splitOn_append sep s.toList t.toList ht
  have hparts : init.map String.ofList ++ [String.ofList last] = [a, b] ++ [c] := by
    rw [← List.map_singleton, ← List.map_append, ← hs]
    exact h
  obtain ⟨hinit, hlast⟩ := List.append_inj' hparts rfl
  have hc : String.ofList (last ++ t.toList) = c ++ t := by
    rw [String.ofList_append, String.ofList_toList, List.singleton_inj.mp hlast]
  unfold split
  rw [String.toList_append, hst, List.map_append, hinit, List.map_singleton, hc]
  rfl

/-- Appending to a text without the separator keeps the number of parts. -/
theorem length_split_append {sep : Char} {s t : String} (ht : sep ∉ t.toList) :
    (split sep (s ++ t)).length = (split sep s).length := by
  obtain ⟨init, last, hs, hst⟩ := splitOn_append sep s.toList t.toList ht
  unfold split
  rw [String.toList_append, hs, hst]
  simp only [List.map_append, List.length_append, List.length_map, List.length_singleton]

end BearerAuth.Text

import BearerAuth.Json.Basic

namespace BearerAuth.Json

theorem lookup_member (name : String) (m : String × Json) (rest : Members) :
    (m :: rest).lookup name = if name = m.1 then some m.2 else rest.lookup name := by
  rw [List.lookup_cons]
  by_cases hm : name = m.1
  · rw [if_pos hm, beq_iff_eq.mpr hm]
  · rw [if_neg hm, beq_eq_false_iff_ne.mpr hm]

theorem lookup_insert (members : Members) (name sought : String) (value : Json) :
    (members.insert name value).lookup sought =
      if sought = name then some value else members.lookup sought := by
  induction members with
  | nil => exact lookup_member sought (name, value) []
  | cons member rest ih =>
    obtain ⟨n, v⟩ := member
    unfold Members.insert
    by_cases hlt : name < n
    · rw [if_pos hlt, lookup_member]
    · rw [if_neg hlt]
      by_cases heq : name = n
      · rw [if_pos heq, lookup_member, lookup_member, ← heq]
        by_cases hs : sought = name
        · rw [if_pos hs, if_pos hs]
        · rw [if_neg hs, if_neg hs, if_neg hs]
      · rw [if_neg heq, lookup_member, lookup_member, ih]
        by_cases hs : sought = name
        · rw [if_pos hs, if_pos hs, if_neg (hs ▸ heq)]
        · rw [if_neg hs, if_neg hs]

/-- Sorting keeps the last value of each name. -/
theorem get?_sorted (members : Members) (name : String) :
    (Members.sorted members).get? name = members.reverse.lookup name := by
  -- the invariant: a fold over some members hides what the accumulator has under their names
  have hfold : ∀ ms acc : Members, (ms.foldl (fun acc m => acc.insert m.1 m.2) acc).lookup name =
      (ms.reverse.lookup name).or (acc.lookup name) := by
    intro ms
    induction ms with
    | nil => intro acc; rfl
    | cons m rest ih =>
      intro acc
      rw [List.foldl_cons, ih, lookup_insert, List.reverse_cons, List.lookup_append,
        Option.or_assoc, lookup_member]
      by_cases hm : name = m.1
      · rw [if_pos hm, if_pos hm, Option.some_or]
      · rw [if_neg hm, if_neg hm, List.lookup_nil, Option.none_or]
  have hall := hfold members []
  rw [List.lookup_nil, Option.or_none] at hall
  exact hall

theorem canonicalMembers_eq_map (members : Members) :
    canonicalMembers members = members.map fun m => (m.1, m.2.canonical) := by
  induction members with
  | nil => rfl
  | cons m rest ih =>
    obtain ⟨n, v⟩ := m
    rw [canonicalMembers, ih, List.map_cons]

theorem canonicalItems_eq_map (items : List Json) :
    canonicalItems items = items.map canonical := by
  induction items with
  | nil => rfl
  | cons v rest ih => rw [canonicalItems, ih, List.map_cons]

theorem lookup_canonicalMembers (members : Members) (name : String) :
    (canonicalMembers members).lookup name = (members.lookup name).map canonical := by
  induction members with
  | nil => rfl
  | cons m rest ih =>
    obtain ⟨n, v⟩ := m
    rw [canonicalMembers, lookup_member, lookup_member, ih]
    by_cases hm : name = n
    · rw [if_pos hm, if_pos hm, Option.map_some]
    · rw [if_neg hm, if_neg hm]

/-- A name that stands once is found from either end. -/
theorem lookup_reverse_of_once (members : Members) (name : String)
    (h : (members.filter (·.1 == name)).length ≤ 1) :
    members.reverse.lookup name = members.lookup name := by
  induction members with
  | nil => rfl
  | cons m rest ih =>
    rw [List.reverse_cons, List.lookup_append, lookup_member, lookup_member]
    by_cases hm : name = m.1
    · have hnone : rest.reverse.lookup name = none := by
        rw [List.filter_cons, if_pos (beq_iff_eq.mpr hm.symm), List.length_cons] at h
        have hrest := List.eq_nil_of_length_eq_zero (Nat.le_zero.mp (Nat.le_of_succ_le_succ h))
        apply List.lookup_eq_none_iff.mpr
        intro p hp
        have hne := List.filter_eq_nil_iff.mp hrest p (List.mem_reverse.mp hp)
        exact bne_iff_ne.mpr (fun he => hne (beq_iff_eq.mpr he.symm))
      rw [if_pos hm, if_pos hm, hnone, Option.none_or]
    · rw [List.filter_cons, if_neg (fun he => hm (beq_iff_eq.mp he).symm)] at h
      rw [if_neg hm, if_neg hm, ih h, List.lookup_nil, Option.or_none]

/-- What stands in canonical form under a name that is not repeated. -/
theorem get?_canonical_of_once (members : Members) (name : String)
    (h : (members.filter (·.1 == name)).length ≤ 1) :
    (Members.sorted (canonicalMembers members)).get? name =
      (members.lookup name).map canonical := by
  have honce : ((canonicalMembers members).filter (·.1 == name)).length ≤ 1 := by
    rw [canonicalMembers_eq_map, List.filter_map, List.length_map]
    exact h
  rw [get?_sorted, lookup_reverse_of_once _ name honce, lookup_canonicalMembers]

theorem string?_eq_some_iff (v : Json) (s : String) : v.string? = some s ↔ v = .string s := by
  cases v <;> simp only [string?, Option.some.injEq, reduceCtorEq, string.injEq]

theorem string?_canonical (v : Json) : v.canonical.string? = v.string? := by
  cases v <;> simp only [canonical, string?]

end BearerAuth.Json

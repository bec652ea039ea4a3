import Mathlib.Data.List.Basic
import BearerAuth.Recency

namespace BearerAuth.RecencyMap

section Lookup

variable {α : Type}

theorem lookup_of_lookup_take {entries : List (String × α)} {n : Nat} {key : String} {value : α}
    (h : (entries.take n).lookup key = some value) : entries.lookup key = some value := by
  rw [← List.take_append_drop n entries, List.lookup_append, h]
  rfl

theorem lookup_filter_ne (entries : List (String × α)) (key other : String) :
    (entries.filter (·.1 != key)).lookup other =
      if other = key then none else entries.lookup other := by
  induction entries with
  | nil => simp
  | cons entry entries ih =>
    obtain ⟨name, value⟩ := entry
    by_cases hname : name = key
    · subst hname
      rw [List.filter_cons_of_neg (by simp), ih]
      by_cases hother : other = name
      · simp [hother]
      · have hne : (other == name) = false := beq_eq_false_iff_ne.mpr hother
        simp [List.lookup_cons, hother, hne]
    · rw [List.filter_cons_of_pos (by simpa using hname), List.lookup_cons, List.lookup_cons, ih]
      by_cases hother : other = name
      · subst hother
        simp [hname]
      · have hne : (other == name) = false := beq_eq_false_iff_ne.mpr hother
        simp [hne]

end Lookup

variable {capacity : Nat} {α : Type} (m : RecencyMap capacity α)

theorem peek?_erase (key other : String) :
    (m.erase key).peek? other = if other = key then none else m.peek? other :=
  lookup_filter_ne m.entries key other

theorem erase_of_peek?_eq_none {key : String} (h : m.peek? key = none) : m.erase key = m := by
  have hkept : ∀ entry ∈ m.entries, (entry.1 != key) = true := by
    intro entry hmem
    have hne := List.lookup_eq_none_iff.mp h entry hmem
    rw [bne_iff_ne]
    exact fun heq => absurd heq.symm (by simpa using hne)
  unfold erase
  rw [List.filter_eq_self.mpr hkept]

theorem get_of_peek?_eq_none {key : String} (h : m.peek? key = none) : m.get key = (none, m) := by
  unfold get
  rw [h]

/-- Reading changes the order of the entries, and nothing in what is known. -/
theorem peek?_get (key other : String) : (m.get key).2.peek? other = m.peek? other := by
  cases hpeek : m.peek? key with
  | none => rw [get_of_peek?_eq_none m hpeek]
  | some value =>
    have hget : (m.get key).2 = ⟨(key, value) :: (m.erase key).entries⟩ := by
      unfold get
      rw [hpeek]
    have hrest : (m.erase key).entries.lookup other =
        if other = key then none else m.peek? other := peek?_erase m key other
    rw [hget]
    change ((key, value) :: (m.erase key).entries).lookup other = m.peek? other
    rw [List.lookup_cons, hrest]
    by_cases hother : other = key
    · rw [hother, beq_self_eq_true, hpeek]
    · have hne : (other == key) = false := beq_eq_false_iff_ne.mpr hother
      rw [hne, if_neg hother]

/-- What is known after an entry is written is the entry, or what was known before. -/
theorem peek?_of_put {key other : String} {value found : α}
    (h : (m.put key value).peek? other = some found) :
    (other = key ∧ found = value) ∨ (other ≠ key ∧ m.peek? other = some found) := by
  have hwhole : ((key, value) :: (m.erase key).entries).lookup other = some found :=
    lookup_of_lookup_take h
  rw [List.lookup_cons] at hwhole
  by_cases hother : other = key
  · subst hother
    rw [beq_self_eq_true] at hwhole
    exact Or.inl ⟨rfl, (Option.some.inj hwhole).symm⟩
  · have hne : (other == key) = false := beq_eq_false_iff_ne.mpr hother
    rw [hne] at hwhole
    have herased : (m.erase key).peek? other = some found := hwhole
    rw [peek?_erase, if_neg hother] at herased
    exact Or.inr ⟨hother, herased⟩

/-- What is known after entries are written in turn is what the last of them says, or what was known
before if none of them says anything. -/
theorem peek?_of_putAll {entries : List (String × α)} {key : String} {found : α}
    (h : (m.putAll entries).peek? key = some found) :
    entries.reverse.lookup key = some found ∨
      (entries.reverse.lookup key = none ∧ m.peek? key = some found) := by
  induction entries generalizing m with
  | nil => exact Or.inr ⟨rfl, h⟩
  | cons entry entries ih =>
    obtain ⟨name, value⟩ := entry
    rw [List.reverse_cons, List.lookup_append]
    rcases ih (m.put name value) h with hlater | ⟨hnone, hearlier⟩
    · rw [hlater]
      exact Or.inl rfl
    · -- the entries after the first say nothing, so it is the first or what was known before
      rw [hnone, Option.none_or]
      rcases peek?_of_put m hearlier with ⟨rfl, rfl⟩ | ⟨hne, hbefore⟩
      · exact Or.inl (by simp)
      · have hbeq : (key == name) = false := beq_eq_false_iff_ne.mpr hne
        exact Or.inr ⟨by simp [List.lookup_cons, hbeq], hbefore⟩

/-- What every bounded map keeps to: it is no larger than its capacity and has one entry for a key
at most. -/
structure WellFormed (m : RecencyMap capacity α) : Prop where
  bounded : m.entries.length ≤ capacity
  distinct : m.keys.Nodup

theorem wellFormed_empty : ({} : RecencyMap capacity α).WellFormed where
  bounded := Nat.zero_le capacity
  distinct := List.nodup_nil

variable {m}

theorem WellFormed.erase (h : m.WellFormed) (key : String) : (m.erase key).WellFormed where
  bounded := by
    have hfewer : (m.erase key).entries.length ≤ m.entries.length := List.length_filter_le ..
    exact Nat.le_trans hfewer h.bounded
  distinct := by
    have hsub : (m.erase key).keys.Sublist m.keys := List.filter_sublist.map Prod.fst
    exact hsub.nodup h.distinct

theorem not_mem_keys_erase (m : RecencyMap capacity α) (key : String) :
    key ∉ (m.erase key).keys := by
  intro hmem
  obtain ⟨entry, hentry, hkey⟩ := List.mem_map.mp hmem
  have hne : (entry.1 != key) = true := (List.mem_filter.mp hentry).2
  exact bne_iff_ne.mp hne hkey

theorem WellFormed.put (h : m.WellFormed) (key : String) (value : α) :
    (m.put key value).WellFormed where
  bounded := length_put_le m key value
  distinct := by
    -- the key stands before the entries of all others, of which some at the end may be dropped
    have hwhole : (key :: (m.erase key).keys).Nodup :=
      List.nodup_cons.mpr ⟨not_mem_keys_erase m key, (h.erase key).distinct⟩
    have hsub : (m.put key value).keys.Sublist (key :: (m.erase key).keys) :=
      (List.take_sublist ..).map Prod.fst
    exact hsub.nodup hwhole

theorem WellFormed.putAll (h : m.WellFormed) (entries : List (String × α)) :
    (m.putAll entries).WellFormed := by
  induction entries generalizing m with
  | nil => exact h
  | cons entry entries ih => exact ih (h.put entry.1 entry.2)

end BearerAuth.RecencyMap

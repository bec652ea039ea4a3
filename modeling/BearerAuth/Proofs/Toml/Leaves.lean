import Mathlib.Data.List.Nodup
import BearerAuth.Proofs.Toml.Order

namespace BearerAuth.Toml

/-- The value that keys lead to. -/
def valueAt? : Toml → List String → Option Toml
  | v, [] => some v
  | .table entries, key :: path => (entries.lookup key).bind fun v => v.valueAt? path
  | _, _ :: _ => none

/-- The value that keys lead to, if it is no table. -/
def leafAt? (v : Toml) (path : List String) : Option Toml :=
  (v.valueAt? path).filter fun leaf => !leaf.isTable

mutual

/-- The values that are no tables, each with the keys that lead to it. -/
def leaves : Toml → List (List String × Toml)
  | .table entries => leavesOf entries
  | v => [([], v)]

def leavesOf : List (String × Toml) → List (List String × Toml)
  | [] => []
  | (key, v) :: rest => v.leaves.map (fun (path, leaf) => (key :: path, leaf)) ++ leavesOf rest

end

theorem leavesOf_eq_flatMap (entries : List (String × Toml)) :
    leavesOf entries =
      entries.flatMap fun (key, v) => v.leaves.map fun (path, leaf) => (key :: path, leaf) := by
  induction entries with
  | nil => rfl
  | cons entry entries ih => rw [leavesOf, ih, List.flatMap_cons]

theorem leaves_of_not_isTable {v : Toml} (h : v.isTable = false) : v.leaves = [([], v)] := by
  cases v with
  | table entries => nomatch h
  | _ => rfl

/-- A key that stands once has the value that stands with it. -/
theorem lookup_eq_some_iff_mem {α β : Type} [BEq α] [LawfulBEq α] {entries : List (α × β)}
    (h : (entries.map Prod.fst).Nodup) {key : α} {value : β} :
    entries.lookup key = some value ↔ (key, value) ∈ entries := by
  induction entries with
  | nil => simp
  | cons entry entries ih =>
    obtain ⟨k, v⟩ := entry
    obtain ⟨hnew, hkeys⟩ := List.nodup_cons.mp h
    rw [List.lookup_cons, List.mem_cons, Prod.mk.injEq]
    by_cases hkey : key = k
    · subst hkey
      have hother : (key, value) ∉ entries := fun hmem =>
        hnew (List.mem_map.mpr ⟨(key, value), hmem, rfl⟩)
      simp [hother, eq_comm]
    · rw [beq_eq_false_iff_ne.mpr hkey]
      simp [hkey, ih hkeys]

theorem leafAt?_nil {v : Toml} (h : v.isTable = false) : v.leafAt? [] = some v := by
  rw [leafAt?, valueAt?, Option.filter_some, h]
  rfl

theorem leafAt?_table_nil (entries : List (String × Toml)) :
    (Toml.table entries).leafAt? [] = none := rfl

theorem leafAt?_cons {v : Toml} (h : v.isTable = false) (key : String) (path : List String) :
    v.leafAt? (key :: path) = none := by
  cases v with
  | table entries => nomatch h
  | _ => rfl

theorem leafAt?_table_cons (entries : List (String × Toml)) (key : String) (path : List String) :
    (Toml.table entries).leafAt? (key :: path) =
      (entries.lookup key).bind fun v => v.leafAt? path := by
  rw [leafAt?, valueAt?]
  cases entries.lookup key <;> rfl

/-- The leaves are the values that keys lead to and that are no tables. -/
theorem Ordered.mem_leaves_iff {v leaf : Toml} (h : v.Ordered) (path : List String) :
    (path, leaf) ∈ v.leaves ↔ v.leafAt? path = some leaf := by
  induction h generalizing path with
  | @leaf v hleaf =>
    rw [leaves_of_not_isTable hleaf, List.mem_singleton, Prod.mk.injEq]
    cases path with
    | nil => simp [leafAt?_nil hleaf, eq_comm]
    | cons key path => simp [leafAt?_cons hleaf]
  | @table entries hkeys _ ih =>
    rw [leaves, leavesOf_eq_flatMap, List.mem_flatMap]
    cases path with
    | nil => simp [leafAt?_table_nil]
    | cons key path =>
      have hnodup : (entries.map Prod.fst).Nodup := hkeys.imp fun hless => String.ne_of_lt hless
      rw [leafAt?_table_cons, Option.bind_eq_some_iff]
      constructor
      · rintro ⟨⟨k, v⟩, hmem, hleaf⟩
        obtain ⟨⟨rest, w⟩, hrest, heq⟩ := List.mem_map.mp hleaf
        obtain ⟨⟨rfl, rfl⟩, rfl⟩ : (k = key ∧ rest = path) ∧ w = leaf := by simpa using heq
        exact ⟨v, (lookup_eq_some_iff_mem hnodup).mpr hmem, (ih (k, v) hmem rest).mp hrest⟩
      · rintro ⟨v, hlookup, hleaf⟩
        have hmem := (lookup_eq_some_iff_mem hnodup).mp hlookup
        exact ⟨(key, v), hmem,
          List.mem_map.mpr ⟨(path, leaf), (ih (key, v) hmem path).mpr hleaf, rfl⟩⟩

/-- No two leaves are at the same place. -/
theorem Ordered.nodup_leaves {v : Toml} (h : v.Ordered) : (v.leaves.map Prod.fst).Nodup := by
  induction h with
  | @leaf v hleaf =>
    rw [leaves_of_not_isTable hleaf]
    exact List.nodup_singleton _
  | @table entries hkeys _ ih =>
    have hplaces : (Toml.table entries).leaves.map Prod.fst =
        entries.flatMap fun entry => (entry.2.leaves.map Prod.fst).map (entry.1 :: ·) := by
      rw [leaves, leavesOf_eq_flatMap, List.map_flatMap]
      simp only [List.map_map]
      rfl
    rw [hplaces, List.nodup_flatMap]
    constructor
    · exact fun entry hmem => (ih entry hmem).map (List.cons_injective)
    -- the places under a key begin with it
    · refine (List.pairwise_map.mp hkeys).imp fun {entry other} hless => ?_
      refine List.disjoint_left.mpr fun path hpath hother => ?_
      obtain ⟨_, -, rfl⟩ := List.mem_map.mp hpath
      obtain ⟨_, -, hsame⟩ := List.mem_map.mp hother
      exact String.ne_of_lt hless (List.cons.inj hsame).1.symm

end BearerAuth.Toml

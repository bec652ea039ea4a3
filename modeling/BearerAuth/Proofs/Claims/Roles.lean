import BearerAuth.Claims
import BearerAuth.Proofs.Json.Printer
import BearerAuth.Proofs.Text.Listing

namespace BearerAuth.Roles

/-- An item of a list names a role: a text by what trimming leaves of it, and any other value but
null by its text. -/
inductive ItemNames : Json → String → Prop where
  | name {s : String} : Text.trim s ≠ "" → ItemNames (.string s) (Text.trim s)
  | value {item : Json} : item ≠ .null → (∀ s, item ≠ .string s) → ItemNames item item.text

/-- A claim names a role: by a part of a comma separated list or by an item of an array. -/
inductive Names : Json → String → Prop where
  | part {s part role : String} : part ∈ Text.split ',' s → ItemNames (.string part) role →
      Names (.string s) role
  | item {items : List Json} {item : Json} {role : String} : item ∈ items → ItemNames item role →
      Names (.array items) role

theorem ItemNames.ne_empty {item : Json} {role : String} (h : ItemNames item role) : role ≠ "" := by
  cases h with
  | name hne => exact hne
  | value _ _ => exact item.text_ne_empty

theorem ItemNames.trimmed {item : Json} {role : String} (h : ItemNames item role) :
    Text.Trimmed role := by
  cases h with
  | name _ => exact Text.trimmed_trim _
  | value _ _ => exact item.trimmed_text

theorem Names.exists_itemNames {v : Json} {role : String} (h : Names v role) :
    ∃ item, ItemNames item role := by
  cases h with
  | part _ hitem => exact ⟨_, hitem⟩
  | item _ hitem => exact ⟨_, hitem⟩

theorem nonBlank?_eq_some_iff_itemNames (s role : String) :
    Text.nonBlank? s = some role ↔ ItemNames (.string s) role := by
  rw [Text.nonBlank?_eq_some_iff]
  constructor
  · rintro ⟨hne, rfl⟩
    exact .name hne
  · intro h
    cases h with
    | name hne => exact ⟨hne, rfl⟩
    | value _ hother => exact absurd rfl (hother s)

theorem ofItem?_of_value {item : Json} (hnull : item ≠ .null) (hother : ∀ s, item ≠ .string s) :
    ofItem? item = some item.text := by
  cases item with
  | null => exact absurd rfl hnull
  | string s => exact absurd rfl (hother s)
  | bool _ => rfl
  | number _ => rfl
  | array _ => rfl
  | object _ => rfl

theorem ofItem?_eq_some_iff (item : Json) (role : String) :
    ofItem? item = some role ↔ ItemNames item role := by
  by_cases hnull : item = .null
  · subst hnull
    refine iff_of_false (Option.some_ne_none role).symm fun h => ?_
    cases h with
    | value hne _ => exact hne rfl
  by_cases hstring : ∃ s, item = .string s
  · obtain ⟨s, rfl⟩ := hstring
    exact nonBlank?_eq_some_iff_itemNames s role
  · have hother : ∀ s, item ≠ .string s := fun s hs => hstring ⟨s, hs⟩
    rw [ofItem?_of_value hnull hother, Option.some_inj]
    constructor
    · rintro rfl
      exact .value hnull hother
    · intro h
      cases h with
      | name _ => exact absurd rfl (hother _)
      | value _ _ => rfl

/-- Sorting the roles and keeping each once takes none away and adds none. -/
theorem mem_ofClaim_iff_mem_listed (v : Option Json) (role : String) :
    role ∈ ofClaim v ↔ role ∈ listed v := by
  unfold ofClaim
  rw [List.mem_eraseDups, List.mem_mergeSort]

theorem mem_ofClaim_iff (v : Option Json) (role : String) :
    role ∈ ofClaim v ↔ ∃ value, v = some value ∧ Names value role := by
  rw [mem_ofClaim_iff_mem_listed]
  constructor
  · intro h
    unfold listed at h
    split at h
    · next s =>
      obtain ⟨part, hpart, hrole⟩ := List.mem_filterMap.mp h
      exact ⟨_, rfl, .part hpart ((nonBlank?_eq_some_iff_itemNames part role).mp hrole)⟩
    · next items =>
      obtain ⟨item, hitem, hrole⟩ := List.mem_filterMap.mp h
      exact ⟨_, rfl, .item hitem ((ofItem?_eq_some_iff item role).mp hrole)⟩
    · exact absurd h List.not_mem_nil
  · rintro ⟨value, rfl, hnames⟩
    cases hnames with
    | part hpart hitem =>
      apply List.mem_filterMap.mpr
      exact ⟨_, hpart, (nonBlank?_eq_some_iff_itemNames _ role).mpr hitem⟩
    | item hmem hitem =>
      apply List.mem_filterMap.mpr
      exact ⟨_, hmem, (ofItem?_eq_some_iff _ role).mpr hitem⟩

/-- Names without commas are listed alike in an array and in a text. -/
theorem listed_array_eq_listed_string {names : List String}
    (h : ∀ name ∈ names, ',' ∉ name.toList) :
    listed (some (.array (names.map .string))) = listed (some (.string (Text.join "," names))) := by
  have harray : listed (some (.array (names.map .string))) = names.filterMap Text.nonBlank? := by
    have hitems : listed (some (.array (names.map .string))) =
        (names.map Json.string).filterMap ofItem? := rfl
    rw [hitems, List.filterMap_map]
    rfl
  have htext : listed (some (.string (Text.join "," names))) =
      (Text.split ',' (Text.join "," names)).filterMap Text.nonBlank? := rfl
  rw [harray, htext]
  by_cases hnil : names = []
  · -- the text of no names has a single part, which is blank
    rw [hnil]
    decide
  · have hsplit : Text.split ',' (Text.join "," names) = names := Text.split_join hnil h
    rw [hsplit]

/-- The roles of a claim are those that it names, and none of them is empty or has white space
around it. Names without commas give the same roles as an array and as a comma separated list. -/
theorem roles_of_claim :
    (∀ v role, (role ∈ ofClaim v ↔ ∃ value, v = some value ∧ Names value role) ∧
      (role ∈ ofClaim v → role ≠ "" ∧ Text.Trimmed role)) ∧
    ∀ names : List String, (∀ name ∈ names, ',' ∉ name.toList) →
      ofClaim (some (.array (names.map .string))) =
        ofClaim (some (.string (Text.join "," names))) := by
  refine ⟨fun v role => ⟨mem_ofClaim_iff v role, fun h => ?_⟩, fun names h => ?_⟩
  · obtain ⟨value, -, hnames⟩ := (mem_ofClaim_iff v role).mp h
    obtain ⟨item, hitem⟩ := hnames.exists_itemNames
    exact ⟨hitem.ne_empty, hitem.trimmed⟩
  · unfold ofClaim
    rw [listed_array_eq_listed_string h]

/-- Names that are blank, repeated and not in order, in both forms; and an array of an array,
which names a role, and of null and a blank text, which name none. -/
theorem roles_of_claim_mixed :
    ofClaim (some (.array (["user", " admin ", "", "user"].map .string))) =
        ofClaim (some (.string "user, admin ,,user")) ∧
      "admin" ∈ ofClaim (some (.string "user, admin ,,user")) ∧
      "[null]" ∈ ofClaim (some (.array [.null, .string " ", .array [.null]])) ∧
      "" ∉ ofClaim (some (.array [.null, .string " ", .array [.null]])) := by
  obtain ⟨hroles, hforms⟩ := roles_of_claim
  refine ⟨hforms _ (by decide), ?_, ?_, ?_⟩
  · have hpart : " admin " ∈ Text.split ',' "user, admin ,,user" := by decide
    have htrim : Text.trim " admin " = "admin" := by decide
    rw [(hroles _ _).1, ← htrim]
    exact ⟨_, rfl, .part hpart (.name (by decide))⟩
  · have htext : (Json.array [.null]).text = "[null]" := by decide
    rw [(hroles _ _).1, ← htext]
    exact ⟨_, rfl, .item (by simp) (.value nofun nofun)⟩
  · intro hempty
    exact ((hroles _ "").2 hempty).1 rfl

end BearerAuth.Roles

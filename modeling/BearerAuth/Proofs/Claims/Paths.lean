import BearerAuth.Claims
import BearerAuth.Proofs.Text.Listing

namespace BearerAuth.ClaimPath

/-- The names of a path lead from the members of an object to a value: each but the last is the name
of an object within the one before. -/
inductive Leads : List String → Json.Members → Json → Prop
  | last {name : String} {members : Json.Members} {v : Json} (h : members.get? name = some v) :
    Leads [name] members v
  | within {name : String} {rest : List String} {members inner : Json.Members} {v : Json}
    (h : members.get? name = some (.object inner)) (hrest : Leads rest inner v) :
    Leads (name :: rest) members v

theorem Leads.ne_nil {names : List String} {members : Json.Members} {v : Json}
    (h : Leads names members v) : names ≠ [] := by
  cases h <;> exact List.cons_ne_nil _ _

/-- What a path finds in claims is what its names lead to. -/
theorem find?_eq_some_iff (p : ClaimPath) (c : Claims) (v : Json) :
    p.find? c = some v ↔ Leads p.segments c.members v := by
  obtain ⟨segments⟩ := p
  obtain ⟨members⟩ := c
  change follow segments members = some v ↔ Leads segments members v
  fun_induction follow segments members with
  | case1 members =>
    refine iff_of_false nofun ?_
    intro h
    exact h.ne_nil rfl
  | case2 name members =>
    constructor
    · exact .last
    · intro h
      cases h with
      | last hlast => exact hlast
      | within _ hrest => exact absurd rfl hrest.ne_nil
  | case3 name rest members hnonempty ih =>
    simp only [Option.bind_eq_bind, Option.bind_eq_some_iff]
    constructor
    · rintro ⟨outer, houter, inner, hinner, hfollow⟩
      cases outer with
      | object found =>
        obtain rfl := Option.some.inj hinner
        exact .within houter ((ih found).mp hfollow)
      | _ => exact nomatch hinner
    · intro h
      cases h with
      | last hlast => exact absurd rfl hnonempty
      | within houter hrest => exact ⟨_, houter, _, rfl, (ih _).mpr hrest⟩

/-- A name that can stand between the dots of a path. -/
structure IsSegment (name : String) : Prop where
  notEmpty : name ≠ ""
  trimmed : Text.Trimmed name
  dotFree : '.' ∉ name.toList

/-- A path that can stand between the commas of a list. -/
structure IsListed (p : ClaimPath) : Prop where
  isSet : p.isSet = true
  isSegment : ∀ name ∈ p.segments, IsSegment name
  commaFree : ∀ name ∈ p.segments, ',' ∉ name.toList

/-- The comma separated list of paths by their texts. -/
def listText (paths : List ClaimPath) : String := Text.join "," (paths.map text)

theorem IsSegment.nonBlank? {name : String} (h : IsSegment name) :
    Text.nonBlank? name = some name := by
  apply Text.nonBlank?_eq_some_iff.mpr
  exact ⟨h.notEmpty, Text.trim_eq_self_iff.mpr h.trimmed⟩

/-- A name of a path is what is left of a part between dots after trimming. -/
theorem mem_ofText_iff (s name : String) :
    name ∈ (ofText s).segments ↔ name ≠ "" ∧ ∃ part ∈ Text.split '.' s, Text.trim part = name := by
  unfold ofText
  rw [List.mem_filterMap]
  simp only [Text.nonBlank?_eq_some_iff]
  constructor
  · rintro ⟨part, hpart, hne, htrim⟩
    exact ⟨hne, part, hpart, htrim⟩
  · rintro ⟨hne, part, hpart, htrim⟩
    exact ⟨part, hpart, hne, htrim⟩

theorem isSegment_of_mem_ofText {s name : String} (h : name ∈ (ofText s).segments) :
    IsSegment name := by
  obtain ⟨hne, part, hpart, rfl⟩ := (mem_ofText_iff s name).mp h
  refine ⟨hne, Text.trimmed_trim part, fun hdot => ?_⟩
  -- trimming adds no dot, and between dots there is none
  exact (Text.mem_of_mem_split hpart (Text.mem_of_mem_trim hdot)).2 rfl

/-- The characters of a name are characters of the text that it is read from. -/
theorem mem_toList_of_mem_ofText {s name : String} (h : name ∈ (ofText s).segments) {c : Char}
    (hc : c ∈ name.toList) : c ∈ s.toList := by
  obtain ⟨-, part, hpart, rfl⟩ := (mem_ofText_iff s name).mp h
  exact (Text.mem_of_mem_split hpart (Text.mem_of_mem_trim hc)).1

/-- What is read from a text without commas has none either. -/
theorem isListed_of_isSet {s : String} (hset : (ofText s).isSet = true) (h : ',' ∉ s.toList) :
    (ofText s).IsListed where
  isSet := hset
  isSegment _ hname := isSegment_of_mem_ofText hname
  commaFree _ hname hcomma := h (mem_toList_of_mem_ofText hname hcomma)

theorem isListed_of_mem_listOfText {s : String} {p : ClaimPath} (h : p ∈ listOfText s) :
    p.IsListed := by
  obtain ⟨hread, hset⟩ := List.mem_filter.mp h
  obtain ⟨part, hpart, rfl⟩ := List.mem_map.mp hread
  apply isListed_of_isSet hset
  exact fun hcomma => (Text.mem_of_mem_split hpart hcomma).2 rfl

/-- A path of such names is read back from its text. -/
theorem ofText_text_of_forall {p : ClaimPath} (h : ∀ name ∈ p.segments, IsSegment name) :
    ofText p.text = p := by
  obtain ⟨segments⟩ := p
  by_cases hnil : segments = []
  · -- the empty path has the empty text, of which the only part is blank
    rw [hnil]
    decide
  · have hsplit : Text.split '.' (Text.join "." segments) = segments :=
      Text.split_join hnil fun name hname => (h name hname).dotFree
    have hkept : segments.filterMap Text.nonBlank? = segments.filterMap some :=
      List.filterMap_congr fun name hname => (h name hname).nonBlank?
    unfold ofText text
    rw [hsplit, hkept, List.filterMap_some]

/-- The text of a path has no commas but those of its names. -/
theorem IsListed.not_mem_text {p : ClaimPath} (h : p.IsListed) : ',' ∉ p.text.toList := by
  intro hcomma
  rcases Text.mem_toList_join '.' hcomma with hdot | ⟨name, hname, hmem⟩
  · exact absurd hdot (by decide)
  · exact h.commaFree name hname hmem

/-- A list of paths is read back from its text. -/
theorem listOfText_listText {paths : List ClaimPath} (h : ∀ p ∈ paths, p.IsListed) :
    listOfText (listText paths) = paths := by
  by_cases hnil : paths = []
  · -- again the only part is blank, and a path that is not set does not count
    rw [hnil]
    decide
  · have hsplit : Text.split ',' (Text.join "," (paths.map text)) = paths.map text := by
      apply Text.split_join (mt List.map_eq_nil_iff.mp hnil)
      intro part hpart
      obtain ⟨p, hp, rfl⟩ := List.mem_map.mp hpart
      exact (h p hp).not_mem_text
    have hread : (paths.map text).map ofText = paths := by
      rw [List.map_map]
      calc paths.map (ofText ∘ text) = paths.map id :=
            List.map_congr_left fun p hp => ofText_text_of_forall (h p hp).isSegment
        _ = paths := List.map_id paths
    unfold listOfText listText
    rw [hsplit, hread, List.filter_eq_self]
    exact fun p hp => (h p hp).isSet

/-- A path of names that can stand between dots is read back from its text, and every text is read
as such a path. What is read from a list are paths that are set, and they are read back from their
list, as every list of such paths is whose names hold no comma. -/
theorem reads_back :
    (∀ segments, (∀ name ∈ segments, IsSegment name) → ofText (text ⟨segments⟩) = ⟨segments⟩) ∧
      (∀ s, (∀ name ∈ (ofText s).segments, IsSegment name) ∧
        ofText (ofText s).text = ofText s) ∧
      (∀ paths : List ClaimPath, (∀ p ∈ paths, p.IsListed) → listOfText (listText paths) = paths) ∧
      ∀ s, listOfText (listText (listOfText s)) = listOfText s ∧
        ∀ p ∈ listOfText s, p.isSet = true := by
  refine ⟨fun segments h => ?_, fun s => ?_, fun paths h => ?_, fun s => ?_⟩
  · exact ofText_text_of_forall h
  · have hsegments : ∀ name ∈ (ofText s).segments, IsSegment name :=
      fun _ => isSegment_of_mem_ofText
    exact ⟨hsegments, ofText_text_of_forall hsegments⟩
  · exact listOfText_listText h
  · have hlisted : ∀ p ∈ listOfText s, p.IsListed := fun _ => isListed_of_mem_listOfText
    exact ⟨listOfText_listText hlisted, fun p hp => (hlisted p hp).isSet⟩

/-- Names with white space and commas in them, and a list with blanks, dots and commas next to each
other. -/
theorem reads_back_untidy :
    ofText (text ⟨["realm access", "role,s"]⟩) = ⟨["realm access", "role,s"]⟩ ∧
      ofText " realm access.. .role,s " = ⟨["realm access", "role,s"]⟩ ∧
      listOfText " a . b ,, .. ,c" = [⟨["a", "b"]⟩, ⟨["c"]⟩] ∧
      listOfText (listText (listOfText " a . b ,, .. ,c")) = listOfText " a . b ,, .. ,c" := by
  obtain ⟨hpath, -, -, hlist⟩ := reads_back
  refine ⟨hpath _ ?_, by decide, by decide, (hlist _).1⟩
  have hread : (ofText " realm access.. .role,s ").segments = ["realm access", "role,s"] := by
    decide
  rw [← hread]
  exact fun _ => isSegment_of_mem_ofText

end BearerAuth.ClaimPath

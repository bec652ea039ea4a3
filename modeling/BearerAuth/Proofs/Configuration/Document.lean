import Mathlib
import BearerAuth.Proofs.Configuration.Readings
import BearerAuth.Proofs.Toml.Leaves

namespace BearerAuth

/-- The keys that values are under are not empty and hold no dots. What is in an array is a part of
its text, whatever the keys are there. -/
inductive Toml.HasPlainKeys : Toml → Prop
  | leaf {v : Toml} (h : v.isTable = false) : HasPlainKeys v
  | table {entries : List (String × Toml)}
      (keys : ∀ entry ∈ entries, entry.1 ≠ "" ∧ '.' ∉ entry.1.toList)
      (values : ∀ entry ∈ entries, HasPlainKeys entry.2) : HasPlainKeys (.table entries)

theorem Toml.HasPlainKeys.of_mem_leaves {v leaf : Toml} (h : v.HasPlainKeys) {path : List String}
    (hmem : (path, leaf) ∈ v.leaves) : ∀ key ∈ path, '.' ∉ key.toList := by
  induction h generalizing path with
  | @leaf v hleaf =>
    rw [Toml.leaves_of_not_isTable hleaf, List.mem_singleton, Prod.mk.injEq] at hmem
    obtain ⟨rfl, -⟩ := hmem
    nofun
  | @table entries hkeys _ ih =>
    rw [Toml.leaves, Toml.leavesOf_eq_flatMap] at hmem
    obtain ⟨⟨key, v⟩, hentry, hmem⟩ := List.mem_flatMap.mp hmem
    obtain ⟨⟨rest, w⟩, hrest, heq⟩ := List.mem_map.mp hmem
    obtain ⟨rfl, rfl⟩ := Prod.mk.inj heq
    exact List.forall_mem_cons.mpr ⟨(hkeys (key, v) hentry).2, ih (key, v) hentry hrest⟩

namespace Parameters

/-- The text of a value that is no table: a string is its own text, and the items of an array are
joined by commas. -/
def leafText : Toml → String
  | .array items => Text.join "," (items.map itemText)
  | v => itemText v

/-- The name of what keys lead to from a table that has a name. -/
def nameUnder (name : String) (path : List String) : String :=
  if name.isEmpty then Text.join "." path else Text.join "." (name :: path)

theorem nameUnder_nil (name : String) : nameUnder name [] = name := by
  unfold nameUnder
  split
  · rename_i hempty
    exact (String.isEmpty_iff.mp hempty).symm
  · rfl

theorem nameUnder_cons {key : String} (hkey : key ≠ "") (name : String) (path : List String) :
    nameUnder name (key :: path) =
      nameUnder (if name.isEmpty then key else s!"{name}.{key}") path := by
  unfold nameUnder
  by_cases hname : name.isEmpty
  · rw [if_pos hname, if_pos hname, if_neg (mt String.isEmpty_iff.mp hkey)]
  · have hlonger : ¬ (s!"{name}.{key}").isEmpty := by
      rw [String.isEmpty_iff, String.append_eq_empty_iff]
      exact fun h => hkey h.2
    rw [if_neg hname, if_neg hname, if_neg hlonger]
    rfl

theorem flattenEntries_eq_flatMap (name : String) (entries : List (String × Toml)) :
    flattenEntries name entries = entries.flatMap fun (key, v) =>
      flatten (if name.isEmpty then key else s!"{name}.{key}") v := by
  induction entries with
  | nil => rfl
  | cons entry entries ih => rw [flattenEntries, ih, List.flatMap_cons]

theorem flatten_of_not_isTable {v : Toml} (h : v.isTable = false) (name : String) :
    flatten name v = [(name, leafText v)] := by
  cases v with
  | table entries => nomatch h
  | _ => rfl

/-- A table is flattened to the texts of its leaves, each under the name that its keys make. -/
theorem flatten_eq_map_leaves {v : Toml} (h : v.HasPlainKeys) (name : String) :
    flatten name v = v.leaves.map fun (path, leaf) => (nameUnder name path, leafText leaf) := by
  induction h generalizing name with
  | @leaf v hleaf =>
    rw [flatten_of_not_isTable hleaf, Toml.leaves_of_not_isTable hleaf, List.map_singleton]
    dsimp only
    rw [nameUnder_nil]
  | @table entries hkeys _ ih =>
    rw [flatten, flattenEntries_eq_flatMap, Toml.leaves, Toml.leavesOf_eq_flatMap,
      List.map_flatMap]
    refine List.flatMap_congr ?_
    rintro ⟨key, v⟩ hmem
    dsimp only
    rw [ih (key, v) hmem, List.map_map]
    refine List.map_congr_left ?_
    rintro ⟨path, leaf⟩ -
    rw [Function.comp_apply, nameUnder_cons (hkeys (key, v) hmem).1]

theorem foldl_distinct {entries kept : List (String × String)}
    (h : (entries.map Prod.fst).Nodup)
    (hkept : ∀ entry ∈ entries, ∀ other ∈ kept, other.1 ≠ entry.1) :
    entries.foldl (fun kept e => e :: kept.filter (·.1 != e.1)) kept =
      entries.reverse ++ kept := by
  induction entries generalizing kept with
  | nil => rfl
  | cons entry entries ih =>
    obtain ⟨hnew, hnodup⟩ := List.nodup_cons.mp h
    obtain ⟨hentry, hentries⟩ := List.forall_mem_cons.mp hkept
    have hall : kept.filter (·.1 != entry.1) = kept :=
      List.filter_eq_self.mpr fun other hother => bne_iff_ne.mpr (hentry other hother)
    rw [List.foldl_cons, hall, ih hnodup, List.reverse_cons, List.append_assoc,
      List.singleton_append]
    intro other hother
    refine List.forall_mem_cons.mpr ⟨fun hsame => hnew ?_, hentries other hother⟩
    exact List.mem_map.mpr ⟨other, hother, hsame.symm⟩

/-- Names that differ are all kept. -/
theorem distinct_of_nodup {entries : List (String × String)} (h : (entries.map Prod.fst).Nodup) :
    distinct entries = entries.reverse := by
  rw [distinct, foldl_distinct h fun _ _ _ hother => absurd hother List.not_mem_nil,
    List.append_nil]

/-- Keys without dots are found again in a name. -/
theorem join_inj {path other : List String} (hpath : path ≠ []) (hother : other ≠ [])
    (hplain : ∀ key ∈ path, '.' ∉ key.toList) (hotherplain : ∀ key ∈ other, '.' ∉ key.toList)
    (h : Text.join "." path = Text.join "." other) : path = other := by
  have hsplit : Text.split '.' (Text.join "." path) = path := Text.split_join hpath hplain
  rw [h] at hsplit
  exact hsplit.symm.trans (Text.split_join hother hotherplain)

section Document

variable {table : List (String × Toml)}

theorem ne_nil_of_mem_leaves (horder : (Toml.table table).Ordered) {path : List String}
    {leaf : Toml} (h : (path, leaf) ∈ (Toml.table table).leaves) : path ≠ [] := by
  rintro rfl
  rw [horder.mem_leaves_iff, Toml.leafAt?_table_nil] at h
  nomatch h

/-- The keys that lead to different values make different names. -/
theorem nodup_names (horder : (Toml.table table).Ordered)
    (hkeys : (Toml.table table).HasPlainKeys) :
    ((flatten "" (.table table)).map Prod.fst).Nodup := by
  have hnames : (flatten "" (.table table)).map Prod.fst =
      ((Toml.table table).leaves.map Prod.fst).map (Text.join ".") := by
    rw [flatten_eq_map_leaves hkeys, List.map_map, List.map_map]
    rfl
  rw [hnames]
  refine List.Nodup.map_on (fun path hpath other hother hsame => ?_) horder.nodup_leaves
  obtain ⟨⟨path, leaf⟩, hmem, rfl⟩ := List.mem_map.mp hpath
  obtain ⟨⟨other, otherleaf⟩, hothermem, rfl⟩ := List.mem_map.mp hother
  exact join_inj (ne_nil_of_mem_leaves horder hmem) (ne_nil_of_mem_leaves horder hothermem)
    (hkeys.of_mem_leaves hmem) (hkeys.of_mem_leaves hothermem) hsame

theorem ofList_flatten (horder : (Toml.table table).Ordered)
    (hkeys : (Toml.table table).HasPlainKeys) {path : List String} (hpath : path ≠ [])
    (hplain : ∀ key ∈ path, '.' ∉ key.toList) :
    ofList (flatten "" (.table table)).reverse (Text.join "." path) =
      ((Toml.table table).leafAt? path).map leafText := by
  have hnodup : ((flatten "" (.table table)).reverse.map Prod.fst).Nodup := by
    rw [List.map_reverse, List.nodup_reverse]
    exact nodup_names horder hkeys
  ext text
  rw [ofList, Toml.lookup_eq_some_iff_mem hnodup, List.mem_reverse, flatten_eq_map_leaves hkeys,
    List.mem_map, Option.map_eq_some_iff]
  constructor
  · rintro ⟨⟨other, leaf⟩, hmem, heq⟩
    obtain ⟨hname, rfl⟩ := Prod.mk.inj heq
    obtain rfl := join_inj (ne_nil_of_mem_leaves horder hmem) hpath (hkeys.of_mem_leaves hmem)
      hplain hname
    exact ⟨leaf, (horder.mem_leaves_iff _).mp hmem, rfl⟩
  · rintro ⟨leaf, hleaf, rfl⟩
    exact ⟨(path, leaf), (horder.mem_leaves_iff path).mpr hleaf, rfl⟩

theorem encard_leaves (horder : (Toml.table table).Ordered) :
    Set.encard {path | ((Toml.table table).leafAt? path).isSome} =
      (Toml.table table).leaves.length := by
  have hpaths : {path | ((Toml.table table).leafAt? path).isSome} =
      ↑((Toml.table table).leaves.map Prod.fst).toFinset := by
    ext path
    rw [Set.mem_ofPred_eq, Option.isSome_iff_exists, Finset.mem_coe, List.mem_toFinset,
      List.mem_map]
    simp only [← horder.mem_leaves_iff, Prod.exists, exists_and_right, exists_eq_right]
  rw [hpaths, Set.encard_coe_eq_coe_finsetCard, List.toFinset_card_of_nodup horder.nodup_leaves,
    List.length_map]

end Document

/-- A list that is joined by commas is read again. -/
theorem list_of_join {p : Parameters} {name : String} {items : List String}
    (htext : p name = some (Text.join "," items))
    (hitems : ∀ item ∈ items, ',' ∉ item.toList ∧ Text.trim item = item) (hne : items ≠ [""]) :
    p.list name = items := by
  have htextOf : p.textOf name = Text.join "," items := by
    rw [textOf, htext]
    rfl
  rw [list_eq, htextOf]
  by_cases hnil : items = []
  · rw [hnil]
    decide
  · have hsplit : (Text.split ',' (Text.join "," items)).map Text.trim = items := by
      have hparts : Text.split ',' (Text.join "," items) = items :=
        Text.split_join hnil fun item hmem => (hitems item hmem).1
      rw [hparts]
      exact (List.map_congr_left fun item hmem => (hitems item hmem).2).trans (List.map_id items)
    -- a blank text would be that of one item, which is empty
    rw [hsplit, if_neg]
    intro hblank
    rw [← htextOf] at hblank hsplit
    exact hne (hsplit.symm.trans (map_trim_split_of_blank hblank))

/-- The parameters of a document whose keys are not empty and hold no dots. The keys that lead to a
value that is no table, joined by dots, name a parameter that has the text of the value, and there
are as many parameters as such values. A list of texts that are trimmed and hold no commas is read
as it stands in the document, unless its only text is empty. -/
theorem ofDocument?_by_paths {text : String} {table : List (String × Toml)}
    (hdoc : Toml.document? text = some table) (hkeys : (Toml.table table).HasPlainKeys) :
    ∃ entries, ofDocument? text = some entries ∧
      (∀ path ≠ [], (∀ key ∈ path, '.' ∉ key.toList) →
        ofList entries (Text.join "." path) =
          ((Toml.table table).leafAt? path).map leafText) ∧
      Set.encard {path | ((Toml.table table).leafAt? path).isSome} = entries.length ∧
      ∀ path items, (Toml.table table).valueAt? path = some (.array (items.map .string)) →
        (∀ item ∈ items, ',' ∉ item.toList ∧ Text.trim item = item) → items ≠ [""] →
        (ofList entries).list (Text.join "." path) = items := by
  have horder : (Toml.table table).Ordered := Toml.ordered_document? text table hdoc
  refine ⟨(flatten "" (.table table)).reverse, ?_, ?_, ?_, ?_⟩
  · rw [ofDocument?, hdoc, Option.map_some, ← flatten, distinct_of_nodup]
    exact nodup_names horder hkeys
  · exact fun path hpath hplain => ofList_flatten horder hkeys hpath hplain
  · rw [encard_leaves horder, List.length_reverse, flatten_eq_map_leaves hkeys, List.length_map]
  · intro path items hvalue hitems hne
    have hleaf : (Toml.table table).leafAt? path = some (.array (items.map .string)) := by
      rw [Toml.leafAt?, hvalue]
      rfl
    have hmem := (horder.mem_leaves_iff path).mpr hleaf
    refine list_of_join ?_ hitems hne
    rw [ofList_flatten horder hkeys (ne_nil_of_mem_leaves horder hmem) (hkeys.of_mem_leaves hmem),
      hleaf, Option.map_some, leafText, List.map_map]
    exact congrArg some (congrArg (Text.join ",") (List.map_id _))

/-- A table within a table names no parameter, and an empty text keeps its place in a list. -/
theorem ofDocument?_by_paths_nested :
    ∃ entries,
      ofDocument? "realm = 'api'\n[jwt.headers]\nnames = ['X-Token', '', 'X-Id']\n" =
        some entries ∧
      ofList entries "realm" = some "api" ∧
      ofList entries "jwt.headers" = none ∧
      (ofList entries).list "jwt.headers.names" = ["X-Token", "", "X-Id"] := by
  have hdoc : Toml.document? "realm = 'api'\n[jwt.headers]\nnames = ['X-Token', '', 'X-Id']\n" =
      some [("jwt", .table [("headers", .table
          [("names", .array [.string "X-Token", .string "", .string "X-Id"])])]),
        ("realm", .string "api")] := by cbv
  obtain ⟨entries, hentries, hvalue, -, hlist⟩ := ofDocument?_by_paths hdoc
    (.table (by decide) (List.forall_mem_cons.mpr
      ⟨.table (by decide) (List.forall_mem_singleton.mpr
        (.table (by decide) (List.forall_mem_singleton.mpr (.leaf rfl)))),
      List.forall_mem_singleton.mpr (.leaf rfl)⟩))
  exact ⟨entries, hentries, hvalue ["realm"] (by decide) (by decide),
    hvalue ["jwt", "headers"] (by decide) (by decide),
    hlist ["jwt", "headers", "names"] ["X-Token", "", "X-Id"] rfl (by decide) (by decide)⟩

end Parameters

end BearerAuth

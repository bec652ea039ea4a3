import BearerAuth.Configuration.Provider
import BearerAuth.Proofs.Configuration.Readings

namespace BearerAuth.Provider

/-- The source that a part of the header names stands for, with the scheme at the same place. -/
def sourceAt (schemes : List String) : String × Nat → Option HeaderSource := fun (name, i) =>
  (Text.nonBlank? name).map fun header => ⟨header, schemes[i]?.bind Text.nonBlank?⟩

/-- The sources that the header names of parameters stand for. -/
def sourcesNamed (p : Parameters) : List HeaderSource :=
  (Text.split ',' (p.textOf ParameterName.headerNames)).zipIdx.filterMap
    (sourceAt (Text.split ',' (p.textOf ParameterName.headerSchemes)))

/-- The source that is there if the usual header is asked for. -/
def usualSources (p : Parameters) : List HeaderSource :=
  if (p.string? ParameterName.useDefaultHeaders).bind Parameters.truthValue? = some true then
    [.authorizationBearer]
  else []

/-- The sources that parameters say tokens come from: the usual one if it is asked for, then those
of the named headers, and each once. -/
def sourcesOf (p : Parameters) : List HeaderSource :=
  (usualSources p ++ sourcesNamed p).eraseDups

theorem namedSources_drop {names : List String} (h : ∀ name ∈ names, Text.trim name = name)
    (schemes : List String) (k : Nat) :
    namedSources names (schemes.drop k) =
      .ok ((names.zipIdx k).filterMap (sourceAt schemes)) := by
  induction names generalizing k with
  | nil => rfl
  | cons name names ih =>
    obtain ⟨hname, hnames⟩ := List.forall_mem_cons.mp h
    have hhead := Text.nonBlank?_eq name
    rw [hname] at hhead
    rw [namedSources, List.tail_drop, ih hnames, List.zipIdx_cons, List.head?_drop,
      List.filterMap_cons, sourceAt, hhead]
    by_cases hblank : name = ""
    · rw [if_pos hblank, hblank]
      rfl
    · have hnonempty : name.isEmpty = false := by
        rw [← Bool.not_eq_true, String.isEmpty_iff]
        exact hblank
      rw [if_neg hblank] at hhead ⊢
      rw [HeaderSource.make, hhead, hnonempty]
      rfl

theorem trim_eq_self_of_mem_list {p : Parameters} {name part : String} (h : part ∈ p.list name) :
    Text.trim part = part := by
  rw [Parameters.list_eq] at h
  split at h
  · exact absurd h List.not_mem_nil
  · obtain ⟨given, -, rfl⟩ := List.mem_map.mp h
    exact Text.trim_trim given

theorem filterMap_sourceAt_map_trim (schemes parts : List String) :
    (parts.map Text.trim).zipIdx.filterMap (sourceAt schemes) =
      parts.zipIdx.filterMap (sourceAt schemes) := by
  rw [List.zipIdx_map, List.filterMap_map]
  refine List.filterMap_congr fun entry _ => ?_
  simp only [sourceAt, Function.comp_apply, Prod.map, Text.nonBlank?_trim, id]

/-- The names of headers find their schemes, whatever white space stands around the lists and their
parts. -/
theorem namedSources_list (p : Parameters) :
    namedSources (p.list ParameterName.headerNames) (p.list ParameterName.headerSchemes) =
      .ok (sourcesNamed p) := by
  have hschemes : sourceAt (p.list ParameterName.headerSchemes) =
      sourceAt (Text.split ',' (p.textOf ParameterName.headerSchemes)) := by
    funext ⟨name, i⟩
    simp only [sourceAt, Parameters.getElem?_list_bind]
  have htrimmed : ∀ name ∈ p.list ParameterName.headerNames, Text.trim name = name :=
    fun _ => trim_eq_self_of_mem_list
  have hnamed := namedSources_drop htrimmed (p.list ParameterName.headerSchemes) 0
  rw [List.drop_zero, hschemes] at hnamed
  rw [hnamed, sourcesNamed,
    ← filterMap_sourceAt_map_trim _ (Text.split ',' (p.textOf ParameterName.headerNames)),
    Parameters.list_eq]
  by_cases hblank : Text.trim (p.textOf ParameterName.headerNames) = ""
  · rw [if_pos hblank, Parameters.map_trim_split_of_blank hblank]
    have hpart : Text.nonBlank? "" = none := by decide
    simp only [List.zipIdx_nil, List.filterMap_nil, List.zipIdx_cons, List.filterMap_cons, sourceAt,
      hpart, Option.map_none]
  · rw [if_neg hblank]

theorem addSource_eraseDups (kept : List HeaderSource) (source : HeaderSource) :
    addSource kept.eraseDups source = (kept ++ [source]).eraseDups := by
  rw [List.eraseDups_append, addSource, List.removeAll, List.filter_singleton]
  by_cases hkept : source ∈ kept
  · rw [if_pos (List.contains_iff_mem.mpr (List.mem_eraseDups.mpr hkept))]
    simp [hkept]
  · rw [if_neg (mt (fun h => List.mem_eraseDups.mp (List.contains_iff_mem.mp h)) hkept)]
    simp [hkept, List.eraseDups_cons]

theorem foldl_addSource_eraseDups (kept sources : List HeaderSource) :
    sources.foldl addSource kept.eraseDups = (kept ++ sources).eraseDups := by
  induction sources generalizing kept with
  | nil => rw [List.foldl_nil, List.append_nil]
  | cons source sources ih =>
    rw [List.foldl_cons, addSource_eraseDups, ih, List.append_assoc, List.singleton_append]

theorem nodup_addSource {sources : List HeaderSource} (h : sources.Nodup)
    (source : HeaderSource) : (addSource sources source).Nodup := by
  unfold addSource
  split
  · exact h
  · rename_i hnew
    refine List.nodup_append.mpr ⟨h, List.pairwise_singleton _ _, fun a ha b hb => ?_⟩
    rintro rfl
    rw [List.mem_singleton] at hb
    exact hnew (List.contains_iff_mem.mpr (hb ▸ ha))

theorem nodup_foldl_addSource {kept : List HeaderSource} (h : kept.Nodup)
    (sources : List HeaderSource) : (sources.foldl addSource kept).Nodup := by
  induction sources generalizing kept with
  | nil => exact h
  | cons source sources ih => exact ih (nodup_addSource h source)

theorem nodup_sourcesOf (p : Parameters) : (sourcesOf p).Nodup := by
  rw [sourcesOf, ← List.nil_append (usualSources p ++ sourcesNamed p),
    ← foldl_addSource_eraseDups, List.eraseDups_nil]
  exact nodup_foldl_addSource List.nodup_nil _

theorem headerSources_eq (p : Parameters) (w : Surroundings) (s : ProcessState) :
    (headerSources p w s).1 = .ok (sourcesOf p) := by
  have hstart : (if (p.boolean ParameterName.useDefaultHeaders false w s).1 then
      [HeaderSource.authorizationBearer] else []) = (usualSources p).eraseDups := by
    simp only [usualSources, Parameters.boolean_eq_true_iff]
    split <;> rfl
  rw [sourcesOf, ← foldl_addSource_eraseDups, ← hstart]
  change ((namedSources _ _).map _) = _
  rw [namedSources_list]
  rfl

/-- An engine is made of any sources, if there are some. -/
theorem exists_engineOf (p : Parameters) {sources : List HeaderSource} (h : sources ≠ []) :
    ∃ engine, engineOf p sources = .ok engine ∧ engine.sources = sources := by
  have hsources : Engine.ofSources sources = .ok { sources } := by
    rw [Engine.ofSources, if_neg (by rwa [List.isEmpty_iff])]
  rw [engineOf, hsources]
  refine ⟨_, rfl, ?_⟩
  cases p.string? ParameterName.realm <;> cases p.string? ParameterName.usernameClaims <;>
    cases p.string? ParameterName.rolesClaim <;> rfl

/-- The names of headers and the schemes of their tokens are lists whose parts belong together by
their places, blank ones counted. Whatever the lists are, they say which sources there are, each
once and after the usual one if that is asked for, and there is an engine if and only if there is a
source. -/
theorem headers_by_place (p : Parameters) (w : Surroundings) (s : ProcessState) :
    (headerSources p w s).1 = .ok (sourcesOf p) ∧ (sourcesOf p).Nodup ∧
      (headers.configure p w s).1.map (Option.map fun engine => engine.value.sources) =
        .ok (if sourcesOf p = [] then none else some (sourcesOf p)) := by
  have hsources := headerSources_eq p w s
  refine ⟨hsources, nodup_sourcesOf p, ?_⟩
  unfold headers
  dsimp only
  rw [Run.bind_apply, hsources]
  cases hsome : sourcesOf p with
  | nil => rfl
  | cons source rest =>
    obtain ⟨engine, hengine, hkept⟩ := exists_engineOf p (List.cons_ne_nil source rest)
    dsimp only
    rw [hengine, if_neg (List.cons_ne_nil source rest), ← hkept]
    rfl

example : sourcesOf (Parameters.ofList [(ParameterName.useDefaultHeaders, "yes"),
    (ParameterName.headerNames, " X-Token,, Authorization,X-Other"),
    (ParameterName.headerSchemes, ", Basic , Bearer")]) =
    [.authorizationBearer, ⟨"X-Token", none⟩, ⟨"X-Other", none⟩] := by decide

end BearerAuth.Provider

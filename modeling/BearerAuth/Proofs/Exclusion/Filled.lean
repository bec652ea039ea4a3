import BearerAuth.Proofs.Exclusion.Paths

/-! What becomes of a pattern when its wildcards are replaced by texts of any kind, and which of the
paths that come of it are excluded. A wildcard stands for text within a line, so these are the paths
to which the wildcards have brought no line feed. -/

namespace BearerAuth

namespace Wildcard

/-- The text that comes of a pattern when its wildcards are replaced, each by the next of some
texts. -/
def fill : List Char → List (List Char) → List Char
  | [], _ => []
  | x :: pattern, runs =>
    if x = '*' then runs.headD [] ++ fill pattern runs.tail else x :: fill pattern runs

theorem fill_wildcard (pattern run : List Char) (runs : List (List Char)) :
    fill ('*' :: pattern) (run :: runs) = run ++ fill pattern runs := by
  rw [fill, if_pos rfl]
  rfl

theorem fill_literal {x : Char} (hx : x ≠ '*') (pattern : List Char) (runs : List (List Char)) :
    fill (x :: pattern) runs = x :: fill pattern runs := by
  rw [fill, if_neg hx]

/-- There is a first text for a pattern that begins with a wildcard. -/
theorem exists_cons_of_wildcard {pattern : List Char} {runs : List (List Char)}
    (h : runs.length = ('*' :: pattern).count '*') :
    ∃ run rest, runs = run :: rest ∧ rest.length = pattern.count '*' := by
  rw [List.count_cons_self] at h
  cases runs with
  | nil => exact nomatch h
  | cons run rest => exact ⟨run, rest, rfl, Nat.succ.inj h⟩

/-- The two parts of a pattern are replaced one after the other. -/
theorem fill_append {pattern : List Char} (pattern' : List Char) {runs : List (List Char)}
    (runs' : List (List Char)) (h : runs.length = pattern.count '*') :
    fill (pattern ++ pattern') (runs ++ runs') = fill pattern runs ++ fill pattern' runs' := by
  induction pattern generalizing runs with
  | nil =>
    have hruns : runs = [] := List.length_eq_zero_iff.mp h
    rw [hruns]
    rfl
  | cons x pattern ih =>
    by_cases hx : x = '*'
    · subst hx
      obtain ⟨run, rest, rfl, hrest⟩ := exists_cons_of_wildcard h
      rw [List.cons_append, List.cons_append, fill_wildcard, fill_wildcard, ih hrest,
        List.append_assoc]
    · have hrest : runs.length = pattern.count '*' := by
        rw [h, List.count_cons_of_ne hx]
      rw [List.cons_append, fill_literal hx, fill_literal hx, ih hrest, List.cons_append]

/-- A pattern whose wildcards are replaced by wildcards is the pattern. -/
theorem fill_replicate (pattern : List Char) :
    fill pattern (List.replicate (pattern.count '*') ['*']) = pattern := by
  induction pattern with
  | nil => rfl
  | cons x pattern ih =>
    by_cases hx : x = '*'
    · subst hx
      rw [List.count_cons_self, List.replicate_succ, fill_wildcard, ih]
      rfl
    · rw [List.count_cons_of_ne hx, fill_literal hx, ih]

theorem fills_fill (pattern : List Char) {runs : List (List Char)}
    (h : ∀ run ∈ runs, '\n' ∉ run) : Fills pattern (fill pattern runs) := by
  induction pattern generalizing runs with
  | nil => exact .nil
  | cons x pattern ih =>
    by_cases hx : x = '*'
    · subst hx
      cases runs with
      | nil => exact .wildcard [] List.not_mem_nil (ih h)
      | cons run runs =>
        have hrun : '\n' ∉ run := h run List.mem_cons_self
        have hruns : ∀ run ∈ runs, '\n' ∉ run := fun r hr => h r (List.mem_cons_of_mem run hr)
        rw [fill_wildcard]
        exact .wildcard run hrun (ih hruns)
    · rw [fill_literal hx]
      exact .literal hx (ih h)

/-- The line feeds of a text that is accepted are those of the pattern. -/
theorem Fills.count_lineFeed {pattern text : List Char} (h : Fills pattern text) :
    text.count '\n' = pattern.count '\n' := by
  induction h with
  | nil => rfl
  | @literal c pattern text hc hrest ih => rw [List.count_cons, List.count_cons, ih]
  | @wildcard pattern text run hrun hrest ih =>
    have hnone : run.count '\n' = 0 := List.count_eq_zero.mpr hrun
    have hstar : '*' ≠ '\n' := by decide
    rw [List.count_append, hnone, Nat.zero_add, ih, List.count_cons_of_ne hstar]

/-- The replacing texts bring their own line feeds to those of the pattern. -/
theorem count_lineFeed_fill {pattern : List Char} {runs : List (List Char)}
    (h : runs.length = pattern.count '*') :
    (fill pattern runs).count '\n' = pattern.count '\n' + runs.flatten.count '\n' := by
  induction pattern generalizing runs with
  | nil =>
    have hruns : runs = [] := List.length_eq_zero_iff.mp h
    rw [hruns]
    rfl
  | cons x pattern ih =>
    by_cases hx : x = '*'
    · subst hx
      obtain ⟨run, rest, rfl, hrest⟩ := exists_cons_of_wildcard h
      have hstar : '*' ≠ '\n' := by decide
      rw [fill_wildcard, List.count_append, ih hrest, List.count_cons_of_ne hstar,
        List.flatten_cons, List.count_append]
      omega
    · have hrest : runs.length = pattern.count '*' := by
        rw [h, List.count_cons_of_ne hx]
      rw [fill_literal hx, List.count_cons, List.count_cons, ih hrest]
      omega

/-- What comes of a pattern is accepted by it exactly when no wildcard is replaced by a text with a
line feed, whatever else stands in the texts. -/
theorem fills_fill_iff {pattern : List Char} {runs : List (List Char)}
    (h : runs.length = pattern.count '*') :
    Fills pattern (fill pattern runs) ↔ ∀ run ∈ runs, '\n' ∉ run := by
  constructor
  · intro hfills run hrun
    -- an accepted text has the line feeds of the pattern, so the texts can have brought none
    have hcount : (fill pattern runs).count '\n' = pattern.count '\n' := hfills.count_lineFeed
    have hnone : runs.flatten.count '\n' = 0 := by
      rw [count_lineFeed_fill h] at hcount
      omega
    intro hfeed
    exact List.count_eq_zero.mp hnone (List.mem_flatten_of_mem hrun hfeed)
  · exact fills_fill pattern

end Wildcard

namespace PathExclusion

/-- The path that comes of a pattern when its wildcards are replaced, each by the next of some
texts. -/
def filled (pattern : String) (runs : List String) : String :=
  String.ofList (Wildcard.fill pattern.toList (runs.map String.toList))

/-- An exclusion has the trimmed text for its pattern. -/
theorem eq_of_ofText {entry : String} {e : PathExclusion} (h : ofText entry = .ok e) :
    e = ⟨Text.trim entry⟩ := by
  unfold ofText at h
  dsimp only at h
  split at h
  · exact nomatch h
  · split at h
    · exact nomatch h
    · exact (Except.ok.inj h).symm

variable {pattern : String} {runs : List String}

theorem covers_filled_iff (h : runs.length = pattern.toList.count '*') :
    Covers pattern (filled pattern runs) ↔ ∀ run ∈ runs, '\n' ∉ run.toList := by
  have hlength : (runs.map String.toList).length = pattern.toList.count '*' := by
    rw [List.length_map, h]
  have hlist : (filled pattern runs).toList =
      Wildcard.fill pattern.toList (runs.map String.toList) := by
    unfold filled
    rw [String.toList_ofList]
  unfold Covers
  by_cases hstar : '*' ∈ pattern.toList
  · rw [hlist, Wildcard.fills_fill_iff hlength, List.forall_mem_map]
    simp only [hstar, not_true, false_and, true_and, false_or]
  · -- without a wildcard there is nothing to replace, and the pattern is the path
    have hnone : pattern.toList.count '*' = 0 := List.count_eq_zero.mpr hstar
    have hruns : runs = [] := List.length_eq_zero_iff.mp (h.trans hnone)
    have hself : filled pattern [] = pattern := by
      have hreplicate := Wildcard.fill_replicate pattern.toList
      rw [hnone, List.replicate_zero] at hreplicate
      unfold filled
      rw [List.map_nil, hreplicate, String.ofList_toList]
    rw [hruns, hself]
    exact iff_of_true (Or.inl ⟨hstar, rfl⟩) nofun

/-- What starts with the text before a last wildcard comes of the pattern when this wildcard is
replaced, and all others by themselves. -/
theorem exists_filled_append (stem rest : String) :
    ∃ stars : List String, (∀ run ∈ stars, run = "*") ∧
      (stars ++ [rest]).length = (stem ++ "*").toList.count '*' ∧
      filled (stem ++ "*") (stars ++ [rest]) = stem ++ rest := by
  refine ⟨List.replicate (stem.toList.count '*') "*", ?_, ?_, ?_⟩
  · intro run hrun
    exact List.eq_of_mem_replicate hrun
  · rw [List.length_append, List.length_replicate, String.toList_append, List.count_append]
    rfl
  · have hstars : (List.replicate (stem.toList.count '*') "*").map String.toList =
        List.replicate (stem.toList.count '*') ['*'] := List.map_replicate
    have hlength : (List.replicate (stem.toList.count '*') ['*']).length =
        stem.toList.count '*' := List.length_replicate
    have hlast : Wildcard.fill "*".toList [rest.toList] = rest.toList := by
      change Wildcard.fill ('*' :: []) [rest.toList] = rest.toList
      rw [Wildcard.fill_wildcard]
      exact List.append_nil _
    unfold filled
    rw [List.map_append, hstars, List.map_singleton, String.toList_append,
      Wildcard.fill_append _ _ hlength, Wildcard.fill_replicate, hlast, String.ofList_append,
      String.ofList_toList, String.ofList_toList]

/-- Of the paths that are not blank and come of an accepted pattern when its wildcards are replaced
by any texts, those are excluded whose texts have no line feed. So a pattern that ends in a wildcard
excludes what starts with the text before it and has no line feed after that. -/
theorem excludes_filled_iff {entry : String} {e : PathExclusion} (h : ofText entry = .ok e) :
    (∀ runs : List String, runs.length = (Text.trim entry).toList.count '*' →
      Text.isBlank (filled (Text.trim entry) runs) = false →
      (e.excludes (filled (Text.trim entry) runs) = true ↔ ∀ run ∈ runs, '\n' ∉ run.toList)) ∧
    ∀ stem rest : String, Text.trim entry = stem ++ "*" → Text.isBlank (stem ++ rest) = false →
      (e.excludes (stem ++ rest) = true ↔ '\n' ∉ rest.toList) := by
  obtain rfl := eq_of_ofText h
  have hfilled : ∀ runs : List String, runs.length = (Text.trim entry).toList.count '*' →
      Text.isBlank (filled (Text.trim entry) runs) = false →
      (PathExclusion.excludes ⟨Text.trim entry⟩ (filled (Text.trim entry) runs) = true ↔
        ∀ run ∈ runs, '\n' ∉ run.toList) := by
    intro runs hruns hblank
    rw [excludes_eq_true_iff, covers_filled_iff hruns]
    exact and_iff_right hblank
  refine ⟨hfilled, ?_⟩
  intro stem rest hstem hblank
  obtain ⟨stars, hstars, hlength, hpath⟩ := exists_filled_append stem rest
  rw [hstem] at hfilled ⊢
  have hlast := hfilled (stars ++ [rest]) hlength
  rw [hpath] at hlast
  rw [hlast hblank, List.forall_mem_append, List.forall_mem_singleton]
  apply and_iff_right
  -- a wildcard that is kept has no line feed
  intro run hrun
  rw [hstars run hrun]
  decide

/-- A text that holds copies of what follows the wildcard is no obstacle, and a line feed is one
wherever it stands. -/
theorem excludes_filled_iff_repeated :
    ofText " /a*.b*" = .ok ⟨"/a*.b*"⟩ ∧
      PathExclusion.excludes ⟨"/a*.b*"⟩ "/a.b.b.b.bx.b" = true ∧
      PathExclusion.excludes ⟨"/a*.b*"⟩ "/a.b\n.b" = false ∧
      PathExclusion.excludes ⟨"/a*.b*"⟩ "/a*.bc" = true := by
  have htext : ofText " /a*.b*" = .ok ⟨"/a*.b*"⟩ := by decide
  have htrim : Text.trim " /a*.b*" = "/a*.b*" := by decide
  obtain ⟨hfilled, hstem⟩ := excludes_filled_iff htext
  rw [htrim] at hfilled hstem
  refine ⟨htext, ?_, ?_, ?_⟩
  · have hpath : filled "/a*.b*" [".b.b", ".bx.b"] = "/a.b.b.b.bx.b" := by decide
    have hiff := hfilled [".b.b", ".bx.b"] (by decide) (by decide)
    rw [hpath] at hiff
    exact hiff.mpr (by decide)
  · have hpath : filled "/a*.b*" ["", "\n.b"] = "/a.b\n.b" := by decide
    have hiff := hfilled ["", "\n.b"] (by decide) (by decide)
    rw [hpath] at hiff
    exact Bool.eq_false_iff.mpr fun htrue => absurd (hiff.mp htrue) (by decide)
  · exact (hstem "/a*.b" "c" rfl (by decide)).mpr (by decide)

/-- A path of two lines comes of a pattern and starts with the text before its wildcard, and is not
excluded. -/
theorem excludes_two_lines :
    ofText "/public/*" = .ok ⟨"/public/*"⟩ ∧ Text.isBlank "/public/a\nb" = false ∧
      filled "/public/*" ["a\nb"] = "/public/a\nb" ∧
      PathExclusion.excludes ⟨"/public/*"⟩ "/public/a\nb" = false := by
  decide

end PathExclusion

end BearerAuth

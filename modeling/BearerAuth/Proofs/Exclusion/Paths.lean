import BearerAuth.Exclusion.Basic
import BearerAuth.Proofs.Exclusion.Wildcard
import BearerAuth.Proofs.Outcome
import BearerAuth.Proofs.Text.Trimming

namespace BearerAuth

namespace PathExclusion

theorem isBlanket_eq_true_iff (pattern : String) :
    isBlanket pattern = true ↔ ∀ c ∈ pattern.toList, c = '*' ∨ c = '/' ∨ c = ' ' := by
  simp only [isBlanket, List.all_eq_true, Bool.or_eq_true, beq_iff_eq, or_assoc]

/-- An entry that is not blank is taken, trimmed, unless it would exclude every path. -/
theorem ofText_eq_ok_iff {entry : String} (hentry : Text.isBlank entry = false)
    (e : PathExclusion) :
    ofText entry = .ok e ↔ isBlanket (Text.trim entry) = false ∧ e = ⟨Text.trim entry⟩ := by
  have hempty : (Text.trim entry).isEmpty = false := hentry
  unfold ofText
  simp only [hempty, Bool.false_eq_true, if_false]
  cases isBlanket (Text.trim entry) with
  | true => simp
  | false => simp [eq_comm]

/-- The entries of a comma separated list that count. -/
def entries (raw : String) : List String :=
  (Text.split ',' raw).filter fun entry => !Text.isBlank entry

theorem mem_entries_iff (raw entry : String) :
    entry ∈ entries raw ↔ entry ∈ Text.split ',' raw ∧ Text.isBlank entry = false := by
  rw [entries, List.mem_filter, Bool.not_eq_true']

/-- A list is taken as a whole or not at all. -/
theorem ofList_eq_ok_iff (raw : String) (exclusions : List PathExclusion) :
    ofList raw = .ok exclusions ↔
      (∀ entry ∈ entries raw, isBlanket (Text.trim entry) = false) ∧
        exclusions = (entries raw).map fun entry => ⟨Text.trim entry⟩ := by
  change (entries raw).mapM ofText = .ok exclusions ↔ _
  apply Outcome.mapM_eq_ok_iff
  intro entry hmem
  exact ofText_eq_ok_iff ((mem_entries_iff raw entry).mp hmem).2

/-- A pattern covers a path: the pattern itself if it has no wildcard, else what comes of it when
the wildcards are replaced. -/
def Covers (pattern path : String) : Prop :=
  ('*' ∉ pattern.toList ∧ pattern = path) ∨
    ('*' ∈ pattern.toList ∧ Wildcard.Fills pattern.toList path.toList)

theorem excludes_eq_true_iff (e : PathExclusion) (path : String) :
    e.excludes path = true ↔ Text.isBlank path = false ∧ Covers e.pattern path := by
  unfold excludes Covers isWildcard
  rw [Bool.and_eq_true, Bool.not_eq_true', List.contains_eq_mem]
  apply and_congr_right
  intro _
  by_cases hstar : '*' ∈ e.pattern.toList
  · simp [hstar, Wildcard.accepts_iff_fills]
  · simp [hstar]

/-- What a pattern says besides wildcards is in every path that it covers. -/
theorem Covers.mem {pattern path : String} (h : Covers pattern path) {c : Char}
    (hc : c ∈ pattern.toList) (hliteral : c ≠ '*') : c ∈ path.toList := by
  rcases h with ⟨-, rfl⟩ | ⟨-, hfills⟩
  · exact hc
  · exact hfills.mem hc hliteral

theorem isExcludedPath_eq_true_iff {raw : String} {exclusions : List PathExclusion}
    (h : ofList raw = .ok exclusions) (path : String) :
    isExcludedPath path exclusions = true ↔
      Text.isBlank path = false ∧ ∃ entry ∈ entries raw, Covers (Text.trim entry) path := by
  obtain ⟨-, rfl⟩ := (ofList_eq_ok_iff raw exclusions).mp h
  simp only [isExcludedPath, List.any_map, List.any_eq_true, Function.comp_apply,
    excludes_eq_true_iff]
  constructor
  · rintro ⟨entry, hmem, hpath, hcovers⟩
    exact ⟨hpath, entry, hmem, hcovers⟩
  · rintro ⟨hpath, entry, hmem, hcovers⟩
    exact ⟨entry, hmem, hpath, hcovers⟩

/-- A path is excluded by a list exactly when it is not blank and an entry of the list covers it. So
a path of slashes and spaces is never excluded, and a list with an entry that would exclude every
path is refused as a whole. -/
theorem excluded_iff_covered (raw : String) :
    (∀ exclusions, ofList raw = .ok exclusions →
      (∀ path, isExcludedPath path exclusions = true ↔
        Text.isBlank path = false ∧ ∃ entry ∈ Text.split ',' raw,
          Text.isBlank entry = false ∧ Covers (Text.trim entry) path) ∧
      ∀ path, (∀ c ∈ path.toList, c = '/' ∨ c = ' ') → isExcludedPath path exclusions = false) ∧
    ∀ entry ∈ Text.split ',' raw, Text.isBlank entry = false →
      (∀ c ∈ entry.toList, c = '*' ∨ c = '/' ∨ c = ' ') → ∃ e, ofList raw = .error e := by
  constructor
  · intro exclusions hlist
    have hexcluded := isExcludedPath_eq_true_iff hlist
    obtain ⟨htaken, -⟩ := (ofList_eq_ok_iff raw exclusions).mp hlist
    refine ⟨fun path => ?_, fun path hpath => ?_⟩
    · rw [hexcluded]
      simp only [mem_entries_iff, and_assoc]
    · rw [← Bool.not_eq_true, hexcluded]
      rintro ⟨-, entry, hmem, hcovers⟩
      -- the entry was taken, so it says something that the path does not
      have hblanket : isBlanket (Text.trim entry) = true := by
        rw [isBlanket_eq_true_iff]
        intro c hc
        by_cases hstar : c = '*'
        · exact Or.inl hstar
        · exact Or.inr (hpath c (hcovers.mem hc hstar))
      exact Bool.false_ne_true ((htaken entry hmem).symm.trans hblanket)
  · intro entry hsplit hentry hchars
    have hmem : entry ∈ entries raw := (mem_entries_iff raw entry).mpr ⟨hsplit, hentry⟩
    have hblanket : isBlanket (Text.trim entry) = true := by
      rw [isBlanket_eq_true_iff]
      intro c hc
      exact hchars c (Text.mem_of_mem_trim hc)
    cases hlist : ofList raw with
    | error e => exact ⟨e, rfl⟩
    | ok exclusions =>
      obtain ⟨htaken, -⟩ := (ofList_eq_ok_iff raw exclusions).mp hlist
      exact absurd ((htaken entry hmem).symm.trans hblanket) Bool.false_ne_true

/-- Of a list with a blank entry, the wildcard covers a path below it but not the path above, and
the root is not excluded; with one more entry of a slash and a wildcard the list is refused. -/
theorem excluded_iff_covered_public :
    ofList "/healthz, , /public/*" = .ok [⟨"/healthz"⟩, ⟨"/public/*"⟩] ∧
      isExcludedPath "/public/a" [⟨"/healthz"⟩, ⟨"/public/*"⟩] = true ∧
      isExcludedPath "/" [⟨"/healthz"⟩, ⟨"/public/*"⟩] = false ∧
      (∃ e, ofList "/healthz, /*" = .error e) := by
  have hlist : ofList "/healthz, , /public/*" = .ok [⟨"/healthz"⟩, ⟨"/public/*"⟩] := by
    decide
  obtain ⟨haccepted, -⟩ := excluded_iff_covered "/healthz, , /public/*"
  obtain ⟨hcovered, hroot⟩ := haccepted _ hlist
  refine ⟨hlist, ?_, hroot "/" (by simp), ?_⟩
  · rw [hcovered]
    refine ⟨by decide, " /public/*", by decide, by decide, Or.inr ?_⟩
    have htrim : Text.trim " /public/*" = "/public/*" := by decide
    rw [htrim, ← Wildcard.accepts_iff_fills]
    decide
  · obtain ⟨-, hrefused⟩ := excluded_iff_covered "/healthz, /*"
    exact hrefused " /*" (by decide) (by decide) (by simp)

end PathExclusion

end BearerAuth

import Mathlib.Data.List.Infix
import BearerAuth.Key.LoadBalancer.Format

namespace BearerAuth.KeyAddressFormats

def placeholder : List Char := ['%', 's']

/-- A text without a placeholder. -/
def Plain (cs : List Char) : Prop := ¬ placeholder <:+: cs

instance (cs : List Char) : Decidable (Plain cs) := inferInstanceAs (Decidable (¬ _))

/-- A format and the texts between its placeholders, of which there is one more than there are
placeholders. -/
structure Reads (format : List Char) (texts : List (List Char)) : Prop where
  nonempty : texts ≠ []
  joined : placeholder.intercalate texts = format
  plain : ∀ text ∈ texts, Plain text

variable {a b c cs format rest : List Char} {texts : List (List Char)} {char : Char}

theorem plain_nil : Plain [] := by decide

theorem plain_cons_iff : Plain (char :: cs) ↔ ¬ placeholder <+: char :: cs ∧ Plain cs := by
  unfold Plain
  rw [List.infix_cons_iff, not_or]

/-- No placeholder begins in a text and ends in the placeholder after it. -/
theorem not_prefix_of_plain (h : Plain (char :: a)) (rest : List Char) :
    ¬ placeholder <+: char :: (a ++ placeholder ++ rest) := by
  intro hbegins
  obtain ⟨rfl, hnext⟩ := List.cons_prefix_cons.mp hbegins
  cases a with
  | nil =>
    obtain ⟨hsame, -⟩ := List.cons_prefix_cons.mp hnext
    exact absurd hsame (by decide)
  | cons next a =>
    obtain ⟨rfl, -⟩ := List.cons_prefix_cons.mp hnext
    exact (plain_cons_iff.mp h).1 (List.prefix_append placeholder a)

/-! ### The reading of a format -/

theorem parts_placeholder_append (rest : List Char) :
    parts (placeholder ++ rest) = [] :: parts rest := rfl

theorem parts_ne_nil (cs : List Char) : parts cs ≠ [] := by
  fun_cases parts cs <;> simp

theorem parts_cons (h : ¬ placeholder <+: char :: cs) :
    parts (char :: cs) = (parts cs).modifyHead (char :: ·) := by
  rw [parts]
  · cases hparts : parts cs with
    | nil => exact absurd hparts (parts_ne_nil cs)
    | cons first others => rfl
  · rintro rest rfl rfl
    exact h (List.prefix_append placeholder rest)

theorem parts_of_plain (h : Plain a) : parts a = [a] := by
  induction a with
  | nil => rfl
  | cons char a ih =>
    obtain ⟨hbegins, hrest⟩ := plain_cons_iff.mp h
    rw [parts_cons hbegins, ih hrest, List.modifyHead_cons]

theorem parts_append_of_plain (h : Plain a) :
    parts (a ++ placeholder ++ rest) = a :: parts rest := by
  induction a with
  | nil => exact parts_placeholder_append rest
  | cons char a ih =>
    obtain ⟨-, hrest⟩ := plain_cons_iff.mp h
    rw [List.cons_append, List.cons_append, parts_cons (not_prefix_of_plain h rest), ih hrest,
      List.modifyHead_cons]

theorem intercalate_parts (cs : List Char) : placeholder.intercalate (parts cs) = cs := by
  fun_induction parts cs with
  | case1 rest ih =>
    rw [List.intercalate_cons_of_ne_nil (parts_ne_nil rest), ih]
    rfl
  | case2 c rest _ first others hparts ih =>
    rw [hparts] at ih
    cases others with
    | nil => rw [List.intercalate_singleton, ← ih, List.intercalate_singleton]
    | cons second others =>
      rw [List.intercalate_cons_cons] at ih ⊢
      rw [← ih]
      rfl
  | case3 c rest _ hparts => exact absurd hparts (parts_ne_nil rest)
  | case4 => rfl

/-- The first part is the whole text, or a placeholder follows it. -/
theorem cases_of_parts {first : List Char} {others : List (List Char)}
    (h : parts cs = first :: others) :
    cs = first ∨ ∃ after, cs = first ++ placeholder ++ after := by
  have hjoined := intercalate_parts cs
  rw [h] at hjoined
  cases others with
  | nil =>
    rw [List.intercalate_singleton] at hjoined
    exact Or.inl hjoined.symm
  | cons second others =>
    rw [List.intercalate_cons_cons] at hjoined
    exact Or.inr ⟨_, hjoined.symm⟩

theorem isPrefix_of_parts {first : List Char} {others : List (List Char)}
    (h : parts cs = first :: others) : first <+: cs := by
  rcases cases_of_parts h with rfl | ⟨after, rfl⟩
  · exact List.prefix_rfl
  · rw [List.append_assoc]
    exact List.prefix_append _ _

theorem plain_of_mem_parts (cs : List Char) : ∀ text ∈ parts cs, Plain text := by
  fun_induction parts cs with
  | case1 rest ih => exact List.forall_mem_cons.mpr ⟨plain_nil, ih⟩
  | case2 c rest hno first others hparts ih =>
    rw [hparts, List.forall_mem_cons] at ih
    refine List.forall_mem_cons.mpr ⟨plain_cons_iff.mpr ⟨?_, ih.1⟩, ih.2⟩
    -- a placeholder at the beginning of the part would be one of the text, and was not read as one
    intro hbegins
    have hlonger : c :: first <+: c :: rest :=
      List.cons_prefix_cons.mpr ⟨rfl, isPrefix_of_parts hparts⟩
    obtain ⟨after, hafter⟩ := hbegins.trans hlonger
    obtain ⟨rfl, rfl⟩ := List.cons.inj hafter
    exact hno after rfl rfl
  | case3 c rest _ hparts => exact absurd hparts (parts_ne_nil rest)
  | case4 => exact List.forall_mem_singleton.mpr plain_nil

theorem parts_intercalate (hne : texts ≠ []) (h : ∀ text ∈ texts, Plain text) :
    parts (placeholder.intercalate texts) = texts := by
  induction texts with
  | nil => exact absurd rfl hne
  | cons text texts ih =>
    obtain ⟨htext, htexts⟩ := List.forall_mem_cons.mp h
    cases texts with
    | nil => rw [List.intercalate_singleton, parts_of_plain htext]
    | cons next texts =>
      rw [List.intercalate_cons_cons, parts_append_of_plain htext,
        ih (List.cons_ne_nil _ _) htexts]

/-- A format is read in one way. -/
theorem reads_iff : Reads format texts ↔ texts = parts format := by
  constructor
  · rintro ⟨hne, rfl, hplain⟩
    exact (parts_intercalate hne hplain).symm
  · rintro rfl
    exact ⟨parts_ne_nil format, intercalate_parts format, plain_of_mem_parts format⟩

instance : Decidable (Reads format texts) := decidable_of_iff _ reads_iff.symm

/-- A text that is not plain has a first placeholder. -/
theorem exists_first_placeholder (h : ¬ Plain cs) :
    ∃ before after, Plain before ∧ cs = before ++ placeholder ++ after := by
  have hplain := plain_of_mem_parts cs
  cases hparts : parts cs with
  | nil => exact absurd hparts (parts_ne_nil cs)
  | cons before others =>
    rw [hparts] at hplain
    have hbefore : Plain before := hplain before List.mem_cons_self
    rcases cases_of_parts hparts with rfl | ⟨after, hafter⟩
    · exact absurd hbefore h
    · exact ⟨before, after, hbefore, hafter⟩

/-! ### The address -/

theorem fillFirst_append (value : List Char) (h : Plain a) (rest : List Char) :
    fillFirst value (a ++ placeholder ++ rest) = a ++ value ++ rest := by
  induction a with
  | nil => rfl
  | cons char a ih =>
    obtain ⟨-, hrest⟩ := plain_cons_iff.mp h
    have hbegins := not_prefix_of_plain h rest
    rw [List.cons_append, List.cons_append, fillFirst, ih hrest]
    · rfl
    · -- the search would stop here only at a placeholder
      rintro after rfl hafter
      rw [hafter] at hbegins
      exact hbegins (List.prefix_append placeholder after)

variable {f : KeyAddressFormats} {region : String}

theorem address_one (h : Reads (f.formatOf region).toList [a, b]) (keyId : String) :
    f.address region keyId = .ok (String.ofList (a ++ keyId.toList ++ b)) := by
  have hparts := reads_iff.mp h
  have hfill : fillFirst keyId.toList (f.formatOf region).toList = a ++ keyId.toList ++ b := by
    rw [← h.joined, List.intercalate_cons_cons, List.intercalate_singleton]
    exact fillFirst_append _ (h.plain a List.mem_cons_self) b
  unfold address
  dsimp only
  rw [← hparts]
  exact congrArg (fun cs => Except.ok (String.ofList cs)) hfill

/-- The key's identifier goes into the first placeholder that there is when the region is in. -/
theorem address_two (h : Reads (f.formatOf region).toList [a, b, c]) (keyId : String) :
    f.address region keyId = .ok (String.ofList
      (fillFirst keyId.toList (a ++ region.toList ++ b ++ placeholder ++ c))) := by
  have hparts := reads_iff.mp h
  have hfill : fillFirst region.toList (f.formatOf region).toList =
      a ++ region.toList ++ b ++ placeholder ++ c := by
    rw [← h.joined, List.intercalate_cons_cons, List.intercalate_cons_cons,
      List.intercalate_singleton, fillFirst_append _ (h.plain a List.mem_cons_self)]
    simp only [List.append_assoc]
  unfold address
  dsimp only
  rw [← hparts]
  exact congrArg (fun cs => Except.ok (String.ofList (fillFirst keyId.toList cs))) hfill

theorem address_two_of_plain (h : Reads (f.formatOf region).toList [a, b, c])
    (hstart : Plain (a ++ region.toList ++ b)) (keyId : String) :
    f.address region keyId =
      .ok (String.ofList (a ++ region.toList ++ b ++ keyId.toList ++ c)) := by
  rw [address_two h, fillFirst_append _ hstart]

theorem address_two_of_placeholder {before after : List Char}
    (h : Reads (f.formatOf region).toList [a, b, c]) (hbefore : Plain before)
    (hstart : a ++ region.toList ++ b = before ++ placeholder ++ after) (keyId : String) :
    f.address region keyId =
      .ok (String.ofList (before ++ keyId.toList ++ after ++ placeholder ++ c)) := by
  have hfill := fillFirst_append keyId.toList hbefore (after ++ placeholder ++ c)
  rw [address_two h, hstart]
  simp only [List.append_assoc] at hfill ⊢
  rw [hfill]

theorem address_of_other (h : Reads (f.formatOf region).toList texts) (hone : texts.length ≠ 2)
    (htwo : texts.length ≠ 3) (keyId : String) :
    ∃ reason, f.address region keyId = .error (.configuration reason) := by
  have hparts := reads_iff.mp h
  have hne : texts.length ≠ 0 := fun hzero => h.nonempty (List.length_eq_zero_iff.mp hzero)
  unfold address
  dsimp only
  rw [← hparts]
  split
  · exact ⟨_, rfl⟩
  · omega
  · omega
  · exact ⟨_, rfl⟩

/-- A placeholder that comes with the region keeps some identifier out of its place. -/
theorem plain_of_address_two (h : Reads (f.formatOf region).toList [a, b, c])
    (hall : ∀ keyId, f.address region keyId =
      .ok (String.ofList (a ++ region.toList ++ b ++ keyId.toList ++ c))) :
    Plain (a ++ region.toList ++ b) := by
  by_contra hnot
  obtain ⟨before, after, hbefore, hstart⟩ := exists_first_placeholder hnot
  -- any identifier will do that does not begin as a placeholder does
  have hplace := address_two_of_placeholder h hbefore hstart "k"
  rw [hall "k", hstart] at hplace
  have hsame := String.ofList_injective (Except.ok.inj hplace)
  simp only [List.append_assoc] at hsame
  have hnext := List.append_cancel_left hsame
  exact absurd (List.cons.inj hnext).1 (by decide)

/-- Every format is read in one way. With one placeholder it takes the key's identifier, with two
the region and the identifier, and any other number of them is an error. Of a text with two, the
identifier always gets to the second exactly if the text up to there is plain once the region is
in; otherwise it gets to the first placeholder of that text. -/
theorem address_fills (f : KeyAddressFormats) (region : String) :
    (∃! texts, Reads (f.formatOf region).toList texts) ∧
    (∀ a b, Reads (f.formatOf region).toList [a, b] → ∀ keyId,
      f.address region keyId = .ok (String.ofList (a ++ keyId.toList ++ b))) ∧
    (∀ a b c, Reads (f.formatOf region).toList [a, b, c] →
      ((∀ keyId, f.address region keyId =
          .ok (String.ofList (a ++ region.toList ++ b ++ keyId.toList ++ c))) ↔
        Plain (a ++ region.toList ++ b)) ∧
      ∀ before after, Plain before → a ++ region.toList ++ b = before ++ placeholder ++ after →
        ∀ keyId, f.address region keyId =
          .ok (String.ofList (before ++ keyId.toList ++ after ++ placeholder ++ c))) ∧
    ∀ texts, Reads (f.formatOf region).toList texts → texts.length ≠ 2 → texts.length ≠ 3 →
      ∀ keyId, ∃ reason, f.address region keyId = .error (.configuration reason) := by
  refine ⟨?_, fun a b => address_one, ?_, fun texts => address_of_other⟩
  · exact ⟨_, reads_iff.mpr rfl, fun other h => reads_iff.mp h⟩
  intro a b c h
  refine ⟨⟨plain_of_address_two h, address_two_of_plain h⟩, ?_⟩
  intro before after hbefore hstart
  exact address_two_of_placeholder h hbefore hstart

theorem address_fills_ireland :
    initial.address "eu-west-1" "k-1" =
      .ok "https://public-keys.auth.elb.eu-west-1.amazonaws.com/k-1" :=
  ((address_fills initial "eu-west-1").2.2.1 "https://public-keys.auth.elb.".toList
    ".amazonaws.com/".toList [] (by decide)).1.mpr (by decide) "k-1"

/-- A region may have a placeholder for its name. -/
def placeholderRegion : KeyAddressFormats := initial.register "%s" "https://keys.example/%s/%s"

theorem address_placeholderRegion :
    Reads (placeholderRegion.formatOf "%s").toList
        ["https://keys.example/".toList, "/".toList, []] ∧
      placeholderRegion.address "%s" "abc" ≠ .ok "https://keys.example/%s/abc" ∧
      placeholderRegion.address "%s" "abc" = .ok "https://keys.example/abc/%s" := by
  decide

end BearerAuth.KeyAddressFormats

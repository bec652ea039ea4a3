import BearerAuth.HeaderSource
import BearerAuth.Proofs.Text.Trimming

namespace BearerAuth

theorem utf8ByteSize_ofList_cons (c : Char) (cs : List Char) :
    (String.ofList (c :: cs)).utf8ByteSize = c.utf8Size + (String.ofList cs).utf8ByteSize := by
  rw [String.ofList_cons, String.utf8ByteSize_append, String.utf8ByteSize_singleton]

/-- A text splits after some number of bytes if it has a beginning of as many. -/
theorem splitAtByte?_eq_some_iff {n : Nat} {cs head rest : List Char} :
    splitAtByte? n cs = some (head, rest) ↔
      cs = head ++ rest ∧ (String.ofList head).utf8ByteSize = n := by
  fun_induction splitAtByte? n cs generalizing head with
  | case1 cs =>
    rw [String.utf8ByteSize_eq_zero_iff, String.ofList_eq_empty_iff]
    constructor
    · rintro ⟨⟩
      exact ⟨rfl, rfl⟩
    · rintro ⟨rfl, rfl⟩
      rfl
  | case2 n =>
    refine iff_of_false nofun ?_
    rintro ⟨hsplit, hsize⟩
    obtain ⟨rfl, -⟩ := List.append_eq_nil_iff.mp hsplit.symm
    exact nomatch hsize
  | case3 n c cs hfits ih =>
    cases head with
    | nil =>
      refine iff_of_false ?_ (fun h => nomatch h.2)
      intro h
      obtain ⟨pair, -, hpair⟩ := Option.map_eq_some_iff.mp h
      exact nomatch hpair
    | cons d head =>
      have htail := @ih head
      rw [utf8ByteSize_ofList_cons, List.cons_append, List.cons.injEq]
      constructor
      · intro h
        obtain ⟨⟨head', rest'⟩, hfound, hpair⟩ := Option.map_eq_some_iff.mp h
        cases hpair
        obtain ⟨rfl, hsize⟩ := htail.mp hfound
        exact ⟨⟨rfl, rfl⟩, by omega⟩
      · rintro ⟨⟨rfl, hcs⟩, hsize⟩
        rw [htail.mpr ⟨hcs, by omega⟩]
        rfl
  | case4 n c cs hfits =>
    refine iff_of_false nofun ?_
    rintro ⟨hsplit, hsize⟩
    cases head with
    | nil => exact nomatch hsize
    | cons d head =>
      rw [List.cons_append, List.cons.injEq] at hsplit
      rw [utf8ByteSize_ofList_cons, ← hsplit.1] at hsize
      omega

namespace HeaderSource

variable {source : HeaderSource} {header scheme value token : String} {cs rest : List Char}

theorem make_eq_ok_iff {scheme : Option String} :
    make header scheme = .ok source ↔
      ∃ name, Text.nonBlank? header = some name ∧ source = ⟨name, scheme.bind Text.nonBlank?⟩ := by
  unfold make
  cases Text.nonBlank? header with
  | none => exact iff_of_false nofun (fun ⟨_, h, _⟩ => nomatch h)
  | some name => simp [eq_comm]

theorem sameLetters_eq_true_iff (head : List Char) (scheme : String) :
    Text.sameLetters head scheme.toList = true ↔
      Text.asciiLower (String.ofList head) = Text.asciiLower scheme := by
  unfold Text.sameLetters Text.asciiLower
  rw [beq_iff_eq, String.ofList_inj, String.toList_ofList]

/-- What stands after a scheme, whatever the case of its letters. -/
theorem afterScheme?_eq_some_iff :
    afterScheme? scheme cs = some rest ↔ ∃ head : String, cs = head.toList ++ rest ∧
      head.utf8ByteSize = scheme.utf8ByteSize ∧ Text.asciiLower head = Text.asciiLower scheme ∧
      ∃ c ∈ rest.head?, Text.isBlankChar c = true := by
  unfold afterScheme?
  constructor
  · intro h
    obtain ⟨⟨head, rest'⟩, hsplit, hfollows⟩ := Option.bind_eq_some_iff.mp h
    obtain ⟨rfl, hsize⟩ := splitAtByte?_eq_some_iff.mp hsplit
    obtain ⟨hscheme, hrest⟩ := Option.ite_none_right_eq_some.mp hfollows
    obtain rfl := Option.some.inj hrest
    rw [Bool.and_eq_true, sameLetters_eq_true_iff, Option.any_eq_true] at hscheme
    obtain ⟨hletters, c, hc, hblank⟩ := hscheme
    exact ⟨String.ofList head, by rw [String.toList_ofList], hsize, hletters, c, hc, hblank⟩
  · rintro ⟨head, rfl, hsize, hletters, c, hc, hblank⟩
    have hsplit : splitAtByte? scheme.utf8ByteSize (head.toList ++ rest) =
        some (head.toList, rest) := by
      rw [splitAtByte?_eq_some_iff, String.ofList_toList]
      exact ⟨rfl, hsize⟩
    have hsame : Text.sameLetters head.toList scheme.toList = true := by
      rw [sameLetters_eq_true_iff, String.ofList_toList]
      exact hletters
    have hfirst : rest.head?.any Text.isBlankChar = true :=
      (Option.any_eq_true _ _).mpr ⟨c, hc, hblank⟩
    rw [hsplit]
    simp [hsame, hfirst]

/-- Whatever the token is taken from is trimmed, and is no token if it is blank. -/
theorem token?_eq_bind (source : HeaderSource) (value : String) :
    source.token? value =
      (match source.scheme with
        | none => some (Text.trim value).toList
        | some scheme => afterScheme? scheme (Text.trim value).toList).bind fun rest =>
          Text.nonBlank? (String.ofList rest) := by
  have hlast (rest : List Char) : Text.nonBlank? (String.ofList rest) =
      if (Text.trimChars rest).isEmpty then none
      else some (String.ofList (Text.trimChars rest)) := by
    unfold Text.nonBlank? Text.trim
    simp only [String.toList_ofList, String.isEmpty_iff, String.ofList_eq_empty_iff,
      List.isEmpty_iff]
  simp only [hlast, Text.toList_trim]
  unfold token?
  cases source.scheme <;> rfl

theorem token?_of_plain (h : source.scheme = none) (value : String) :
    source.token? value = Text.nonBlank? value := by
  rw [token?_eq_bind, h, Option.bind_some, String.ofList_toList, Text.nonBlank?_trim]

/-- What follows white space to the end of a trimmed text is not blank. -/
theorem trim_ne_empty_of_append {head rest : String} (h : Text.trim value = head ++ rest)
    (hrest : ∃ c ∈ rest.toList.head?, Text.isBlankChar c = true) : Text.trim rest ≠ "" := by
  intro hempty
  have hblank : ∀ c ∈ rest.toList, Text.isBlankChar c = true := by
    rw [← Text.trimChars_eq_nil_iff, ← Text.toList_trim, hempty]
    rfl
  obtain ⟨first, hfirst, -⟩ := hrest
  have hne : rest.toList ≠ [] := List.ne_nil_of_mem (List.mem_of_head? hfirst)
  have hlast : rest.toList.getLast hne ∈ (Text.trimChars value.toList).getLast? := by
    rw [← Text.toList_trim, h, String.toList_append, List.getLast?_append_of_ne_nil _ hne]
    exact List.getLast?_eq_some_getLast hne
  have hnot := Text.not_isBlankChar_of_getLast? hlast
  rw [hblank _ (List.getLast_mem hne)] at hnot
  exact nomatch hnot

/-- The token after a scheme is never blank, since a trimmed value does not end with white space. -/
theorem token?_of_scheme (h : source.scheme = some scheme) :
    source.token? value = some token ↔ ∃ head rest : String, Text.trim value = head ++ rest ∧
      head.utf8ByteSize = scheme.utf8ByteSize ∧ Text.asciiLower head = Text.asciiLower scheme ∧
      (∃ c ∈ rest.toList.head?, Text.isBlankChar c = true) ∧ token = Text.trim rest := by
  rw [token?_eq_bind, h, Option.bind_eq_some_iff]
  simp only [afterScheme?_eq_some_iff, Text.nonBlank?_eq_some_iff]
  constructor
  · rintro ⟨rest, ⟨head, hvalue, hscheme⟩, -, htoken⟩
    refine ⟨head, String.ofList rest, ?_, hscheme.1, hscheme.2.1, ?_, htoken.symm⟩
    · rw [← String.toList_inj, hvalue, String.toList_append, String.toList_ofList]
    · rw [String.toList_ofList]
      exact hscheme.2.2
  · rintro ⟨head, rest, hvalue, hsize, hletters, hblank, rfl⟩
    refine ⟨rest.toList, ⟨head, ?_, hsize, hletters, hblank⟩, ?_, ?_⟩
    · rw [hvalue, String.toList_append]
    · exact trim_ne_empty_of_append hvalue hblank
    · rw [String.ofList_toList]

/-- A token is found again behind its scheme and white space. -/
theorem token?_append {blanks : String} (h : source.scheme = some scheme) (hscheme : scheme ≠ "")
    (htrimmed : Text.trim scheme = scheme) (hblanks : blanks ≠ "")
    (hblank : ∀ c ∈ blanks.toList, Text.isBlankChar c = true) (htoken : token ≠ "")
    (htokenTrimmed : Text.trim token = token) :
    source.token? (scheme ++ blanks ++ token) = some token := by
  have hne {s : String} (hs : s ≠ "") : s.toList ≠ [] := fun hnil =>
    hs (String.toList_eq_nil_iff.mp hnil)
  have hvalue : Text.trim (scheme ++ blanks ++ token) = scheme ++ (blanks ++ token) := by
    rw [← String.toList_inj, Text.toList_trim, String.append_assoc]
    apply Text.trimChars_eq_self
    · intro c hc
      rw [String.toList_append, List.head?_append_of_ne_nil _ (hne hscheme), ← htrimmed,
        Text.toList_trim] at hc
      exact Text.not_isBlankChar_of_head? hc
    · intro c hc
      rw [← String.append_assoc, String.toList_append,
        List.getLast?_append_of_ne_nil _ (hne htoken), ← htokenTrimmed, Text.toList_trim] at hc
      exact Text.not_isBlankChar_of_getLast? hc
  refine (token?_of_scheme h).mpr ⟨scheme, blanks ++ token, hvalue, rfl, rfl, ?_, ?_⟩
  · have hfirst := List.head_mem (hne hblanks)
    refine ⟨blanks.toList.head (hne hblanks), ?_, hblank _ hfirst⟩
    rw [String.toList_append, List.head?_append_of_ne_nil _ (hne hblanks)]
    exact List.head?_eq_some_head _
  · rw [← String.toList_inj, Text.toList_trim, String.toList_append,
      Text.trimChars_append_left hblank, ← Text.toList_trim, htokenTrimmed]

/-- Without a scheme the token is the whole value, trimmed. With one it is what stands, trimmed,
after as many bytes of the value as the scheme has, if they are the scheme up to the case of ASCII
letters and white space follows; a scheme that ends within a character of the value gives none. A
token is neither empty nor has it white space around it, and any such text is found again behind
the scheme. -/
theorem token?_of_make {scheme : Option String} (hmake : make header scheme = .ok source)
    (value : String) :
    (source.scheme = none →
      source.token? value = if Text.trim value = "" then none else some (Text.trim value)) ∧
    (∀ p, source.scheme = some p →
      (∀ token, source.token? value = some token ↔
        ∃ head rest : String, Text.trim value = head ++ rest ∧
          head.utf8ByteSize = p.utf8ByteSize ∧ Text.asciiLower head = Text.asciiLower p ∧
          (∃ c ∈ rest.toList.head?, Text.isBlankChar c = true) ∧ token = Text.trim rest) ∧
      (¬ String.Pos.Raw.IsValid (Text.trim value) ⟨p.utf8ByteSize⟩ →
        source.token? value = none) ∧
      ∀ blanks token, blanks ≠ "" → (∀ c ∈ blanks.toList, Text.isBlankChar c = true) →
        token ≠ "" → Text.trim token = token → source.token? (p ++ blanks ++ token) = some token) ∧
    ∀ token, source.token? value = some token → token ≠ "" ∧ Text.trim token = token := by
  obtain ⟨name, -, rfl⟩ := make_eq_ok_iff.mp hmake
  refine ⟨?_, ?_, ?_⟩
  · intro hplain
    rw [token?_of_plain hplain, Text.nonBlank?_eq]
  · intro p hp
    refine ⟨fun token => token?_of_scheme hp, ?_, ?_⟩
    · intro hinside
      rw [Option.eq_none_iff_forall_ne_some]
      intro token htoken
      obtain ⟨head, rest, hvalue, hsize, -⟩ := (token?_of_scheme hp).mp htoken
      refine hinside (String.Pos.Raw.isValid_iff_exists_append.mpr ⟨head, rest, hvalue, ?_⟩)
      rw [String.rawEndPos, hsize]
    · intro blanks token hblanks hblank htoken htrimmed
      obtain ⟨given, -, hgiven⟩ := Option.bind_eq_some_iff.mp hp
      obtain ⟨hne, rfl⟩ := Text.nonBlank?_eq_some_iff.mp hgiven
      exact token?_append hp hne (Text.trim_trim given) hblanks hblank htoken htrimmed
  · intro token htoken
    rw [token?_eq_bind] at htoken
    obtain ⟨rest, -, hrest⟩ := Option.bind_eq_some_iff.mp htoken
    obtain ⟨hne, rfl⟩ := Text.nonBlank?_eq_some_iff.mp hrest
    exact ⟨hne, Text.trim_trim _⟩

/-- A scheme that is not ASCII is found in another case with other white space after it, and not
where it would end within a character. -/
theorem token?_of_make_accented :
    let accented : HeaderSource := ⟨"X-Token", some "Bearér"⟩
    make " X-Token " (some " Bearér ") = .ok accented ∧
      accented.token? " bEARér\u3000 t.o k " = some "t.o k" ∧
      accented.token? "Bearer€ x" = none ∧
      accented.token? "Bearér\t t.o k" = some "t.o k" := by
  intro accented
  have hmake : make " X-Token " (some " Bearér ") = .ok accented := by decide
  refine ⟨hmake, ?_, ?_, ?_⟩
  · obtain ⟨-, hscheme, -⟩ := token?_of_make hmake " bEARér\u3000 t.o k "
    exact ((hscheme "Bearér" rfl).1 "t.o k").mpr ⟨"bEARér", "\u3000 t.o k", by decide,
      by decide, by decide, ⟨'\u3000', by decide, by decide⟩,
      by decide⟩
  · obtain ⟨-, hscheme, -⟩ := token?_of_make hmake "Bearer€ x"
    refine (hscheme "Bearér" rfl).2.1 ?_
    decide
  · obtain ⟨-, hscheme, -⟩ := token?_of_make hmake ""
    exact (hscheme "Bearér" rfl).2.2 "\t " "t.o k" (by decide)
      (List.all_eq_true.mp (by decide)) (by decide) (by decide)

end HeaderSource

end BearerAuth

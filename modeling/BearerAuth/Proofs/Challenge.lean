import Mathlib
import BearerAuth.Challenge
import BearerAuth.Http.Message

/-! What a client reads in a challenge. It sees the scheme and then the parameters, each a name and
a quoted value; whatever the texts are that a challenge is made of, it reads these parameters with
what is left of the texts, and no others. -/

namespace BearerAuth

namespace ChallengeHeader

/-! ### Reading the parameters of a header -/

/-- Where the reader of a list of parameters is. -/
inductive Place where
  | before
  | name (read : List Char)
  | assigned (name : String)
  | value (name : String) (read : List Char)
  | escaped (name : String) (read : List Char)
  | behind
deriving DecidableEq, Repr

/-- What was read of a list of parameters. -/
structure Reading where
  parameters : List (String × String) := []
  place : Place := .before
deriving DecidableEq, Repr

namespace Reading

/-- Reads one more character. Names are tokens, values stand in quotation marks with a backslash
before a character that is meant as it is, and there may be spaces around the commas. -/
def step (r : Reading) (c : Char) : Option Reading :=
  match r.place with
  | .before =>
    if c == ' ' then some r
    else if Http.isTokenChar c then some { r with place := .name [c] }
    else none
  | .name read =>
    if c == '=' then some { r with place := .assigned (String.ofList read) }
    else if Http.isTokenChar c then some { r with place := .name (read ++ [c]) }
    else none
  | .assigned name => if c == '"' then some { r with place := .value name [] } else none
  | .value name read =>
    if c == '"' then some ⟨r.parameters ++ [(name, String.ofList read)], .behind⟩
    else if c == '\\' then some { r with place := .escaped name read }
    else some { r with place := .value name (read ++ [c]) }
  | .escaped name read => some { r with place := .value name (read ++ [c]) }
  | .behind =>
    if c == ' ' then some r
    else if c == ',' then some { r with place := .before }
    else none

def after (r : Reading) (cs : List Char) : Option Reading := cs.foldlM step r

end Reading

/-- The scheme of a challenge and its parameters, of which there has to be one. -/
def read? (text : String) : Option (String × List (String × String)) :=
  match Reading.after {} (text.toList.dropWhile (· != ' ')) with
  | some ⟨parameters, .behind⟩ =>
    some (String.ofList (text.toList.takeWhile (· != ' ')), parameters)
  | _ => none

theorem ne_of_holds {p : Char → Bool} {c d : Char} (hc : p c = true) (hd : p d = false) :
    c ≠ d := by
  rintro rfl
  exact Bool.false_ne_true (hd.symm.trans hc)

namespace Reading

variable {r r' : Reading} {parameters : List (String × String)} {name : String}

theorem after_cons (c : Char) (cs : List Char) :
    r.after (c :: cs) = (r.step c).bind fun r' => r'.after cs := rfl

theorem after_append {cs : List Char} (h : r.after cs = some r') (ds : List Char) :
    r.after (cs ++ ds) = r'.after ds := by
  unfold after at h ⊢
  rw [List.foldlM_append, h]
  rfl

/-- The characters of a name are read up to the sign behind it. -/
theorem after_name (read cs : List Char) (h : ∀ c ∈ cs, Http.isTokenChar c = true) :
    after ⟨parameters, .name read⟩ cs = some ⟨parameters, .name (read ++ cs)⟩ := by
  -- on the characters of the name, with those that were read before
  induction cs generalizing read with
  | nil =>
    rw [List.append_nil]
    rfl
  | cons c cs ih =>
    have hc : Http.isTokenChar c = true := h c List.mem_cons_self
    have hsign : (c == '=') = false := beq_eq_false_iff_ne.mpr (ne_of_holds hc (by decide))
    have hstep : step ⟨parameters, .name read⟩ c = some ⟨parameters, .name (read ++ [c])⟩ := by
      simp only [step, hsign, hc, Bool.false_eq_true, if_false, if_true]
    have hrest : ∀ d ∈ cs, Http.isTokenChar d = true :=
      fun d hmem => h d (List.mem_cons_of_mem _ hmem)
    rw [after_cons, hstep, Option.bind_some, ih (read ++ [c]) hrest, List.append_assoc]
    rfl

theorem after_sign (read : List Char) :
    after ⟨parameters, .name read⟩ ['=', '"'] =
      some ⟨parameters, .value (String.ofList read) []⟩ := rfl

/-- A character that may be part of a quoted value as it is. -/
def isPlain (c : Char) : Bool := c != '"' && c != '\\'

theorem after_value (read cs : List Char) (h : ∀ c ∈ cs, isPlain c = true) :
    after ⟨parameters, .value name read⟩ cs = some ⟨parameters, .value name (read ++ cs)⟩ := by
  induction cs generalizing read with
  | nil =>
    rw [List.append_nil]
    rfl
  | cons c cs ih =>
    obtain ⟨hmark, hbackslash⟩ : c ≠ '"' ∧ c ≠ '\\' := by
      have hc := h c List.mem_cons_self
      simpa [isPlain] using hc
    have hstep : step ⟨parameters, .value name read⟩ c =
        some ⟨parameters, .value name (read ++ [c])⟩ := by
      simp only [step, beq_eq_false_iff_ne.mpr hmark, beq_eq_false_iff_ne.mpr hbackslash,
        Bool.false_eq_true, if_false]
    have hrest : ∀ d ∈ cs, isPlain d = true := fun d hmem => h d (List.mem_cons_of_mem _ hmem)
    rw [after_cons, hstep, Option.bind_some, ih (read ++ [c]) hrest, List.append_assoc]
    rfl

theorem after_mark (read : List Char) :
    after ⟨parameters, .value name read⟩ ['"'] =
      some ⟨parameters ++ [(name, String.ofList read)], .behind⟩ := rfl

end Reading

/-! ### Writing them -/

/-- A parameter as it is written. -/
def assignment (name value : String) : List Char :=
  name.toList ++ '=' :: '"' :: (value.toList ++ ['"'])

/-- Further parameters as they are written, each behind a comma. -/
def furtherChars (parameters : List (String × String)) : List Char :=
  parameters.flatMap fun (name, value) => ',' :: ' ' :: assignment name value

/-- A parameter that is written in characters of a header, and read as it is written. -/
structure Clean (name value : String) : Prop where
  name_ne : name.toList ≠ []
  token : ∀ c ∈ name.toList, Http.isTokenChar c = true
  name : ∀ c ∈ name.toList, isHeaderChar c = true
  value : ∀ c ∈ value.toList, isParameterChar c = true

theorem isPlain_of_isParameterChar {c : Char} (h : isParameterChar c = true) :
    Reading.isPlain c = true := by
  have hmark : c ≠ '"' := ne_of_holds h (by decide)
  have hbackslash : c ≠ '\\' := ne_of_holds h (by decide)
  simp [Reading.isPlain, hmark, hbackslash]

theorem isHeaderChar_of_isParameterChar {c : Char} (h : isParameterChar c = true) :
    isHeaderChar c = true := by
  rw [isHeaderChar, h, Bool.or_true]

section Clean

variable {name value : String} {parameters further : List (String × String)}

theorem Clean.isHeaderChar (h : Clean name value) {c : Char} (hc : c ∈ assignment name value) :
    isHeaderChar c = true := by
  unfold assignment at hc
  simp only [List.mem_append, List.mem_cons, List.not_mem_nil, or_false] at hc
  rcases hc with hname | rfl | rfl | hvalue | rfl
  · exact h.name c hname
  · decide
  · decide
  · exact isHeaderChar_of_isParameterChar (h.value c hvalue)
  · decide

theorem Clean.after (h : Clean name value) :
    Reading.after ⟨parameters, .before⟩ (assignment name value) =
      some ⟨parameters ++ [(name, value)], .behind⟩ := by
  -- the first character of the name opens it, the others prolong it
  obtain ⟨c, cs, hcs⟩ := List.exists_cons_of_ne_nil h.name_ne
  have hc : Http.isTokenChar c = true := h.token c (hcs ▸ List.mem_cons_self)
  have hspace : (c == ' ') = false := beq_eq_false_iff_ne.mpr (ne_of_holds hc (by decide))
  have hfirst : Reading.step ⟨parameters, .before⟩ c = some ⟨parameters, .name [c]⟩ := by
    simp only [Reading.step, hspace, hc, Bool.false_eq_true, if_false, if_true]
  have hname : Reading.after ⟨parameters, .before⟩ name.toList =
      some ⟨parameters, .name name.toList⟩ := by
    rw [hcs, Reading.after_cons, hfirst, Option.bind_some]
    exact Reading.after_name [c] cs fun d hmem => h.token d (hcs ▸ List.mem_cons_of_mem c hmem)
  have hvalue : Reading.after ⟨parameters, .value name []⟩ value.toList =
      some ⟨parameters, .value name value.toList⟩ :=
    Reading.after_value [] value.toList fun d hmem => isPlain_of_isParameterChar (h.value d hmem)
  have hsign : Reading.after ⟨parameters, .name name.toList⟩ ['=', '"'] =
      some ⟨parameters, .value name []⟩ := by
    rw [Reading.after_sign, String.ofList_toList]
  calc Reading.after ⟨parameters, .before⟩ (assignment name value)
      = Reading.after ⟨parameters, .name name.toList⟩ (['=', '"'] ++ (value.toList ++ ['"'])) :=
        Reading.after_append hname _
    _ = Reading.after ⟨parameters, .value name []⟩ (value.toList ++ ['"']) :=
        Reading.after_append hsign _
    _ = Reading.after ⟨parameters, .value name value.toList⟩ ['"'] :=
        Reading.after_append hvalue _
    _ = some ⟨parameters ++ [(name, value)], .behind⟩ := by
        rw [Reading.after_mark, String.ofList_toList]

/-- Further parameters are read one by one, as they are listed. -/
theorem after_furtherChars (h : ∀ parameter ∈ further, Clean parameter.1 parameter.2) :
    Reading.after ⟨parameters, .behind⟩ (furtherChars further) =
      some ⟨parameters ++ further, .behind⟩ := by
  induction further generalizing parameters with
  | nil =>
    rw [List.append_nil]
    rfl
  | cons parameter further ih =>
    obtain ⟨name, value⟩ := parameter
    have hfirst : Clean name value := h _ List.mem_cons_self
    have hrest : ∀ parameter ∈ further, Clean parameter.1 parameter.2 :=
      fun parameter hmem => h parameter (List.mem_cons_of_mem _ hmem)
    have hcomma : Reading.after ⟨parameters, .behind⟩ [',', ' '] = some ⟨parameters, .before⟩ := rfl
    have hcons : furtherChars ((name, value) :: further) =
        [',', ' '] ++ (assignment name value ++ furtherChars further) := rfl
    rw [hcons, Reading.after_append hcomma, Reading.after_append hfirst.after, ih hrest,
      List.append_assoc]
    rfl

end Clean

/-! ### The header of a challenge -/

/-- A parameter that is left out if nothing is left of its value. -/
def given (name value : String) : List (String × String) :=
  if Text.isBlank (sanitiseParameter value) then [] else [(name, sanitiseParameter value)]

theorem toList_parameter (name value : String) :
    (parameter name value).toList = furtherChars (given name value) := by
  unfold parameter given
  dsimp only
  split
  · rfl
  · simp only [furtherChars, assignment, List.flatMap_singleton, String.toList_append,
      List.append_assoc]
    rfl

theorem isParameterChar_of_mem {c : Char} {value : String}
    (h : c ∈ (sanitiseParameter value).toList) : isParameterChar c = true := by
  rw [sanitiseParameter, String.toList_ofList] at h
  exact (List.mem_filter.mp h).2

theorem clean_realm (realm : String) : Clean "realm" (sanitiseParameter realm) where
  name_ne := by decide
  token := List.all_eq_true.mp (by decide)
  name := List.all_eq_true.mp (by decide)
  value := fun _ => isParameterChar_of_mem

theorem clean_given {name value : String} (hne : name.toList ≠ [])
    (htoken : name.toList.all Http.isTokenChar = true)
    (hname : name.toList.all isHeaderChar = true) :
    ∀ parameter ∈ given name value, Clean parameter.1 parameter.2 := by
  intro parameter hmem
  unfold given at hmem
  split at hmem
  · exact nomatch hmem
  · obtain rfl := List.mem_singleton.mp hmem
    exact ⟨hne, List.all_eq_true.mp htoken, List.all_eq_true.mp hname,
      fun _ => isParameterChar_of_mem⟩

/-- The parameters of a challenge after the realm. -/
def reasons (error description : String) : List (String × String) :=
  given "error" error ++ given "error_description" description

theorem clean_reasons (error description : String) :
    ∀ parameter ∈ reasons error description, Clean parameter.1 parameter.2 := by
  intro parameter hmem
  rcases List.mem_append.mp hmem with herror | hdescription
  · exact clean_given (by decide) (by decide) (by decide) parameter herror
  · exact clean_given (by decide) (by decide) (by decide) parameter hdescription

/-- A challenge before it is sanitised as a whole. -/
def draft (realm : String) (further : List (String × String)) : List Char :=
  scheme.toList ++ ' ' :: (assignment "realm" realm ++ furtherChars further)

theorem toList_realm (value : String) :
    (s!"{scheme} realm=\"{value}\"").toList = scheme.toList ++ ' ' :: assignment "realm" value := by
  simp only [assignment, String.toList_append, List.append_assoc]
  rfl

theorem furtherChars_append (parameters further : List (String × String)) :
    furtherChars (parameters ++ further) = furtherChars parameters ++ furtherChars further :=
  List.flatMap_append

theorem isHeaderChar_of_mem_furtherChars {further : List (String × String)}
    (h : ∀ parameter ∈ further, Clean parameter.1 parameter.2) {c : Char}
    (hc : c ∈ furtherChars further) : isHeaderChar c = true := by
  obtain ⟨parameter, hmem, hc⟩ := List.mem_flatMap.mp hc
  rcases List.mem_cons.mp hc with rfl | hc
  · decide
  · rcases List.mem_cons.mp hc with rfl | hc
    · decide
    · exact (h parameter hmem).isHeaderChar hc

theorem isHeaderChar_of_mem_draft {realm : String} {further : List (String × String)}
    (hrealm : Clean "realm" realm)
    (h : ∀ parameter ∈ further, Clean parameter.1 parameter.2) {c : Char}
    (hc : c ∈ draft realm further) : isHeaderChar c = true := by
  have hscheme : ∀ c ∈ scheme.toList, isHeaderChar c = true := List.all_eq_true.mp (by decide)
  unfold draft at hc
  rcases List.mem_append.mp hc with hc | hc
  · exact hscheme c hc
  · rcases List.mem_cons.mp hc with rfl | hc
    · decide
    · rcases List.mem_append.mp hc with hc | hc
      · exact hrealm.isHeaderChar hc
      · exact isHeaderChar_of_mem_furtherChars h hc

theorem toList_text (realm error description : String) :
    (text realm error description).toList =
      draft (sanitiseParameter realm) (reasons error description) := by
  have hdraft : (s!"{scheme} realm=\"{sanitiseParameter realm}\"" ++
      (parameter "error" error ++ parameter "error_description" description)).toList =
        draft (sanitiseParameter realm) (reasons error description) := by
    rw [String.toList_append, toList_realm, String.toList_append, toList_parameter,
      toList_parameter, ← furtherChars_append, List.append_assoc]
    rfl
  unfold text sanitiseHeader
  rw [String.toList_ofList, hdraft]
  -- there is nothing left to take away
  apply List.filter_eq_self.mpr
  intro c hc
  exact isHeaderChar_of_mem_draft (clean_realm realm) (clean_reasons error description) hc

theorem read?_of_draft {header realm : String} {further : List (String × String)}
    (hrealm : Clean "realm" realm) (h : ∀ parameter ∈ further, Clean parameter.1 parameter.2)
    (hheader : header.toList = draft realm further) :
    read? header = some (scheme, ("realm", realm) :: further) := by
  have hscheme : ∀ c ∈ scheme.toList, (c != ' ') = true := List.all_eq_true.mp (by decide)
  have htake : header.toList.takeWhile (· != ' ') = scheme.toList := by
    rw [hheader, draft, List.takeWhile_append_of_pos hscheme]
    exact List.append_nil _
  have hdrop : header.toList.dropWhile (· != ' ') =
      [' '] ++ (assignment "realm" realm ++ furtherChars further) := by
    rw [hheader, draft, List.dropWhile_append_of_pos hscheme]
    rfl
  -- the space behind the scheme is read as one before the first parameter
  have hspace : Reading.after {} [' '] = some {} := rfl
  have hread : Reading.after {} (header.toList.dropWhile (· != ' ')) =
      some ⟨("realm", realm) :: further, .behind⟩ := by
    rw [hdrop, Reading.after_append hspace, Reading.after_append hrealm.after]
    exact after_furtherChars h
  unfold read?
  rw [hread, htake]
  dsimp only
  rw [String.ofList_toList]

theorem mem_of_isHeaderChar {c : Char} (h : isHeaderChar c = true) :
    c.isAlphanum = true ∨ c ∈ " \"-_.,;/'=+".toList := by
  simp only [isHeaderChar, isParameterChar, Bool.or_eq_true, beq_iff_eq,
    List.contains_iff_mem] at h
  rcases h with rfl | halphanum | hmem
  · exact Or.inr (by decide)
  · exact Or.inl halphanum
  · have hsubset : "-_.,;/'=+ ".toList ⊆ " \"-_.,;/'=+".toList := by decide
    exact Or.inr (hsubset hmem)

theorem isHeaderValueChar_of_isAlphanum {c : Char} (h : c.isAlphanum = true) :
    Http.isHeaderValueChar c = true := by
  have hnumber : c.val.toNat = c.toNat := rfl
  simp only [Char.isAlphanum, Char.isAlpha, Char.isUpper, Char.isLower, Char.isDigit,
    Char.isValue, Char.reduceVal, ge_iff_le, UInt32.le_iff_toNat_le, UInt32.reduceToNat, hnumber,
    Bool.decide_and, Bool.or_eq_true, Bool.and_eq_true, decide_eq_true_eq] at h
  simp only [Http.isHeaderValueChar, Bool.or_eq_true, Bool.and_eq_true, decide_eq_true_eq,
    bne_iff_ne]
  omega

theorem isHeaderValueChar_of_isHeaderChar {c : Char} (h : isHeaderChar c = true) :
    Http.isHeaderValueChar c = true := by
  have hothers : ∀ c ∈ " \"-_.,;/'=+".toList, Http.isHeaderValueChar c = true :=
    List.all_eq_true.mp (by decide)
  rcases mem_of_isHeaderChar h with halphanum | hmem
  · exact isHeaderValueChar_of_isAlphanum halphanum
  · exact hothers c hmem

end ChallengeHeader

namespace Http

theorem HeaderMap.lookup_append (headers : HeaderMap) (name value : String) :
    (headers.append name value).lookup name =
      some ((headers.lookup name).getD [] ++ [value]) := by
  induction headers with
  | nil => simp [append]
  | cons field headers ih =>
    obtain ⟨n, values⟩ := field
    rw [append]
    split
    · next hsame =>
      subst hsame
      simp
    · next hother =>
      have hne : (name == n) = false := beq_eq_false_iff_ne.mpr (Ne.symm hother)
      rw [List.lookup_cons, List.lookup_cons, hne, ih]

/-- A field whose name and value are such is added behind those of its name, and nothing is
reported. -/
theorem Response.addHeader_apply {name n value : String} (hname : headerName? name = some n)
    (hvalue : isHeaderValue value = true) (r : Response) (w : Surroundings) (s : ProcessState) :
    let added := r.addHeader name value w s
    added.1.headers.valuesOf name = r.headers.valuesOf name ++ [value] ∧ added.2 = s := by
  have hfield : Message.addField r.headers (name, value) = some (r.headers.append n value) := by
    simp only [Message.addField, hname, hvalue, bind, Option.bind, if_true]
  intro added
  have hadded : added = ({ r with headers := r.headers.append n value }, s) := by
    unfold added addHeader
    rw [hfield]
    rfl
  rw [hadded]
  refine ⟨?_, rfl⟩
  simp only [HeaderMap.valuesOf, hname]
  rw [HeaderMap.lookup_append]
  rfl

end Http

namespace ChallengeHeader

/-- A challenge consists of letters, digits, spaces, quotation marks and some punctuation, so a
response takes it as a header field. What is read in it is the realm, then the error and then the
description, each as far as its characters may stand in a parameter, and none of the last two if
that leaves a blank. -/
theorem read?_text (realm error description : String) :
    let header := text realm error description
    (∀ c ∈ header.toList, c.isAlphanum = true ∨ c ∈ " \"-_.,;/'=+".toList) ∧
      (∀ (response : Http.Response) (w : Surroundings) (s : ProcessState),
        let added := response.addHeader name header w s
        added.1.headers.valuesOf name = response.headers.valuesOf name ++ [header] ∧
          added.2 = s) ∧
      read? header = some ("Bearer", ("realm", sanitiseParameter realm) ::
        (given "error" error ++ given "error_description" description)) := by
  intro header
  have hclean := clean_reasons error description
  have hdraft : header.toList = draft (sanitiseParameter realm) (reasons error description) :=
    toList_text realm error description
  have hchars : ∀ c ∈ header.toList, isHeaderChar c = true := by
    intro c hc
    rw [hdraft] at hc
    exact isHeaderChar_of_mem_draft (clean_realm realm) hclean hc
  refine ⟨?_, ?_, ?_⟩
  · intro c hc
    exact mem_of_isHeaderChar (hchars c hc)
  · have hname : Http.headerName? name = some "www-authenticate" := by decide
    have hvalue : Http.isHeaderValue header = true := by
      apply List.all_eq_true.mpr
      intro c hc
      exact isHeaderValueChar_of_isHeaderChar (hchars c hc)
    exact fun response w s => response.addHeader_apply hname hvalue w s
  · exact read?_of_draft (clean_realm realm) hclean hdraft

/-- A realm that tries to end its quotation stays one parameter. -/
example : read? (text "a\", error=\"b" "\u00e4" "\\\r\nx") =
    some ("Bearer", [("realm", "a, error=b"), ("error_description", "x")]) := by
  decide

end ChallengeHeader

end BearerAuth

import BearerAuth.Key.Discovery.Address
import BearerAuth.Proofs.Text.Trimming

namespace BearerAuth.DiscoveryAddress

variable {cs base provider head name : List Char}

/-- The part of a path that stands for what is well known. -/
def wellKnownPart : List Char := ".well-known".toList

/-- The last but one of the parts of a path, if it has two. -/
def lastButOne? (cs : List Char) : Option (List Char) := (cs.splitOn '/').dropLast.getLast?

/-- The ways to write the address of a provider, slashes at its end apart. -/
inductive Spells (provider : List Char) : List Char → Prop where
  | document (name : List Char) (hslash : '/' ∉ name) (hname : name ≠ wellKnownPart) :
    Spells provider (provider ++ wellKnown ++ '/' :: name)
  | directory : Spells provider (provider ++ wellKnown)
  | plain (hdirectory : ¬ wellKnown <:+ provider)
    (hparent : ∀ head name, '/' ∉ name → provider = head ++ '/' :: name → ¬ wellKnown <:+ head) :
    Spells provider provider

theorem beforeLastSlash?_eq_some_iff :
    beforeLastSlash? cs = some head ↔ ∃ name, '/' ∉ name ∧ cs = head ++ '/' :: name := by
  have hsplit : cs.reverse.takeWhile (· != '/') ++ cs.reverse.dropWhile (· != '/') = cs.reverse :=
    List.takeWhile_append_dropWhile
  constructor
  · intro h
    unfold beforeLastSlash? at h
    cases hrest : cs.reverse.dropWhile (· != '/') with
    | nil =>
      rw [hrest] at h
      exact nomatch h
    | cons slash before =>
      rw [hrest] at h hsplit
      obtain rfl := Option.some.inj h
      have hslash : slash = '/' := by
        have hstops := List.head_dropWhile_not (· != '/') (l := cs.reverse)
          (by rw [hrest]; exact List.cons_ne_nil _ _)
        simpa [hrest] using hstops
      subst hslash
      refine ⟨(cs.reverse.takeWhile (· != '/')).reverse, ?_, ?_⟩
      · intro hmem
        have hne := List.mem_takeWhile_imp (List.mem_reverse.mp hmem)
        exact bne_iff_ne.mp hne rfl
      · calc cs = cs.reverse.reverse := (List.reverse_reverse cs).symm
          _ = (cs.reverse.takeWhile (· != '/') ++ '/' :: before).reverse :=
            congrArg List.reverse hsplit.symm
          _ = before.reverse ++ '/' :: (cs.reverse.takeWhile (· != '/')).reverse := by
            rw [List.reverse_append, List.reverse_cons, List.append_assoc, List.singleton_append]
  · rintro ⟨name, hname, rfl⟩
    have hpassed : ∀ c ∈ name.reverse, (c != '/') = true := by
      intro c hc
      exact bne_iff_ne.mpr (ne_of_mem_of_not_mem (List.mem_reverse.mp hc) hname)
    have hrest : (head ++ '/' :: name).reverse.dropWhile (· != '/') = '/' :: head.reverse := by
      rw [List.reverse_append, List.reverse_cons, List.append_assoc,
        List.dropWhile_append_of_pos hpassed]
      rfl
    unfold beforeLastSlash?
    rw [hrest]
    exact congrArg some (List.reverse_reverse head)

theorem beforeLastSlash?_append (head : List Char) (hname : '/' ∉ name) :
    beforeLastSlash? (head ++ '/' :: name) = some head :=
  beforeLastSlash?_eq_some_iff.mpr ⟨name, hname, rfl⟩

theorem endsWith_eq_true_iff (cs tail : List Char) : endsWith cs tail = true ↔ tail <:+ cs :=
  List.isSuffixOf_iff_suffix

theorem endsWith_eq_false_iff (cs tail : List Char) : endsWith cs tail = false ↔ ¬ tail <:+ cs := by
  rw [← endsWith_eq_true_iff, Bool.not_eq_true]

@[simp] theorem endsWith_append (cs tail : List Char) : endsWith (cs ++ tail) tail = true :=
  (endsWith_eq_true_iff _ _).mpr (List.suffix_append _ _)

theorem not_suffix_append (cs : List Char) {short tail : List Char}
    (hlength : short.length ≤ tail.length) (h : ¬ short <:+ tail) : ¬ short <:+ cs ++ tail := by
  intro hsuffix
  exact h (List.suffix_of_suffix_length_le hsuffix (List.suffix_append _ _) hlength)

/-- An address without the slashes at its end. -/
def withoutSlashes (cs : List Char) : List Char := Text.dropEndWhile (· == '/') cs

theorem withoutSlashes_append_slash (cs : List Char) :
    withoutSlashes (cs ++ ['/']) = withoutSlashes cs :=
  List.rdropWhile_concat_pos _ _ _ rfl

theorem withoutSlashes_eq_self (h : ¬ ['/'] <:+ cs) : withoutSlashes cs = cs := by
  apply Text.dropEndWhile_eq_self_of_getLast?
  intro c hc
  rw [beq_eq_false_iff_ne]
  rintro rfl
  exact h (List.singleton_suffix_iff_getLast?_eq_some.mpr hc)

/-- The discovery address of an address that does not end with a slash. -/
def ofBase (base : List Char) : List Char :=
  if endsWith base wellKnown then base ++ '/' :: document
  else
    match beforeLastSlash? base with
    | some head => if endsWith head wellKnown then head ++ '/' :: document else base ++ ending
    | none => base ++ ending

/-- A discovery address, and one that lacks only the name of the document, are read as any other
that ends in the well-known path. -/
theorem ofChars_eq_ofBase (cs : List Char) : ofChars cs = ofBase (withoutSlashes cs) := by
  unfold ofChars
  split
  · next h =>
    rw [endsWith_eq_true_iff] at h
    obtain ⟨provider, rfl⟩ := h
    -- the document's name stands after the last slash, and is put there again
    have hbase : withoutSlashes (provider ++ ending) = provider ++ ending :=
      withoutSlashes_eq_self (not_suffix_append provider (by decide) (by decide))
    have hpart : endsWith (provider ++ ending) wellKnown = false :=
      (endsWith_eq_false_iff _ _).mpr (not_suffix_append provider (by decide) (by decide))
    have hsplit : provider ++ ending = (provider ++ wellKnown) ++ '/' :: document :=
      (List.append_assoc _ _ _).symm
    have hhead : beforeLastSlash? (provider ++ ending) = some (provider ++ wellKnown) := by
      rw [hsplit]
      exact beforeLastSlash?_append _ (by decide)
    unfold ofBase
    rw [hbase, hpart, hhead, hsplit]
    simp
  · split
    · next h =>
      rw [endsWith_eq_true_iff] at h
      obtain ⟨provider, rfl⟩ := h
      have hbase : withoutSlashes (provider ++ (wellKnown ++ ['/'])) = provider ++ wellKnown := by
        rw [← List.append_assoc, withoutSlashes_append_slash]
        exact withoutSlashes_eq_self (not_suffix_append provider (by decide) (by decide))
      unfold ofBase
      rw [hbase]
      simp
    · rfl

theorem ofChars_append_slash (cs : List Char) : ofChars (cs ++ ['/']) = ofChars cs := by
  rw [ofChars_eq_ofBase, ofChars_eq_ofBase, withoutSlashes_append_slash]

/-- Every address that does not end with a slash is a way to write some provider's. -/
theorem exists_spells (base : List Char) : ∃ provider, Spells provider base := by
  by_cases hpart : wellKnown <:+ base
  · obtain ⟨provider, rfl⟩ := hpart
    exact ⟨provider, .directory⟩
  by_cases hdocument : ∃ head name, '/' ∉ name ∧ base = head ++ '/' :: name ∧ wellKnown <:+ head
  · obtain ⟨_, name, hslash, rfl, provider, rfl⟩ := hdocument
    refine ⟨provider, .document name hslash ?_⟩
    rintro rfl
    exact hpart (List.suffix_append _ _)
  · refine ⟨base, .plain hpart ?_⟩
    intro head name hslash hbase hhead
    exact hdocument ⟨head, name, hslash, hbase, hhead⟩

/-- However a provider is written, its discovery address is the same. -/
theorem ofBase_of_spells (h : Spells provider base) : ofBase base = provider ++ ending := by
  have hending : provider ++ ending = (provider ++ wellKnown) ++ '/' :: document :=
    (List.append_assoc _ _ _).symm
  unfold ofBase
  cases h with
  | document name hslash hname =>
    have hhead := beforeLastSlash?_append (provider ++ wellKnown) hslash
    have hpart : endsWith (provider ++ wellKnown ++ '/' :: name) wellKnown = false := by
      rw [endsWith_eq_false_iff]
      rintro ⟨other, hother⟩
      -- what follows the last slash would be the well-known part
      have hlast : beforeLastSlash? (other ++ '/' :: wellKnownPart) = some other :=
        beforeLastSlash?_append other (by decide)
      have hsame : other ++ '/' :: wellKnownPart = provider ++ wellKnown ++ '/' :: name := hother
      rw [hsame, hhead] at hlast
      rw [← Option.some.inj hlast] at hsame
      exact hname (List.cons.inj (List.append_cancel_left hsame)).2.symm
    rw [hpart, hhead, hending]
    simp
  | directory =>
    rw [hending]
    simp
  | plain hpart hparent =>
    rw [← endsWith_eq_false_iff] at hpart
    rw [hpart]
    cases hhead : beforeLastSlash? base with
    | none => rfl
    | some head =>
      obtain ⟨name, hslash, hsplit⟩ := beforeLastSlash?_eq_some_iff.mp hhead
      have hother : endsWith head wellKnown = false :=
        (endsWith_eq_false_iff _ _).mpr (hparent head name hslash hsplit)
      simp [hother]

theorem Spells.isPrefix (h : Spells provider base) : provider <+: base := by
  cases h with
  | document name => exact ⟨wellKnown ++ '/' :: name, (List.append_assoc _ _ _).symm⟩
  | directory => exact List.prefix_append _ _
  | plain => exact List.prefix_rfl

/-- A discovery address is that of some provider, which the address begins with. -/
theorem exists_ofChars_eq (cs : List Char) :
    ∃ provider, provider <+: cs ∧ ofChars cs = provider ++ ending := by
  obtain ⟨provider, hspells⟩ := exists_spells (withoutSlashes cs)
  have hbegins : withoutSlashes cs <+: cs := Text.dropEndWhile_isPrefix _ _
  refine ⟨provider, hspells.isPrefix.trans hbegins, ?_⟩
  rw [ofChars_eq_ofBase, ofBase_of_spells hspells]

theorem trimChars_append_ending (h : provider <+: Text.trimChars cs) :
    Text.trimChars (provider ++ ending) = provider ++ ending := by
  apply Text.trimChars_eq_self
  · -- the first character is one of a trimmed text, or the slash of the ending
    intro c hc
    rw [List.head?_append] at hc
    rcases Option.or_eq_some_iff.mp hc with hfirst | ⟨-, hfirst⟩
    · exact Text.not_isBlankChar_of_head? (Text.head?_of_isPrefix h hfirst)
    · rw [← Option.some.inj hfirst]
      decide
  · intro c hc
    have hlast : ending.getLast? = some 'n' := by decide
    rw [List.getLast?_append, hlast] at hc
    rw [← Option.some.inj hc]
    decide

theorem lastButOne?_of_wellKnown (provider : List Char) (hname : '/' ∉ name) :
    lastButOne? (provider ++ wellKnown ++ '/' :: name) = some wellKnownPart := by
  have hpart : wellKnownPart.splitOn '/' = [wellKnownPart] :=
    List.splitOn_eq_singleton (by decide)
  have hparts : (provider ++ wellKnown ++ '/' :: name).splitOn '/' =
      provider.splitOn '/' ++ [wellKnownPart] ++ [name] := by
    calc (provider ++ wellKnown ++ '/' :: name).splitOn '/'
      _ = (provider ++ '/' :: wellKnownPart).splitOn '/' ++ name.splitOn '/' :=
        List.splitOn_append_cons_self _ _
      _ = provider.splitOn '/' ++ wellKnownPart.splitOn '/' ++ name.splitOn '/' := by
        rw [List.splitOn_append_cons_self]
      _ = provider.splitOn '/' ++ [wellKnownPart] ++ [name] := by
        rw [hpart, List.splitOn_eq_singleton hname]
  unfold lastButOne?
  rw [hparts, List.dropLast_concat, List.getLast?_concat]

/-- An address that has no well-known part where one would be looked for is a provider's as it
stands. -/
theorem spells_self (hdirectory : ¬ wellKnown <:+ base)
    (hpart : lastButOne? base ≠ some wellKnownPart) : Spells base base := by
  refine .plain hdirectory ?_
  rintro head name hslash rfl ⟨provider, rfl⟩
  exact hpart (lastButOne?_of_wellKnown provider hslash)

/-! ### Texts -/

variable {b x : String}

theorem toList_ofText (u : String) : (ofText u).toList = ofChars (Text.trimChars u.toList) :=
  String.toList_ofList

theorem exists_ofText_eq (u : String) :
    ∃ p, p.toList <+: Text.trimChars u.toList ∧
      ofText u = p ++ "/.well-known/openid-configuration" := by
  obtain ⟨provider, hbegins, haddress⟩ := exists_ofChars_eq (Text.trimChars u.toList)
  refine ⟨String.ofList provider, by simpa using hbegins, ?_⟩
  rw [← String.toList_inj, toList_ofText, haddress, String.toList_append, String.toList_ofList]
  rfl

theorem ofText_ofText (u : String) : ofText (ofText u) = ofText u := by
  obtain ⟨p, hbegins, haddress⟩ := exists_ofText_eq u
  have hlist : (ofText u).toList = p.toList ++ ending := by
    rw [haddress, String.toList_append]
    rfl
  rw [← String.toList_inj, toList_ofText, hlist, trimChars_append_ending hbegins]
  unfold ofChars
  rw [endsWith_append]
  rfl

theorem ofText_append_slash {u : String}
    (h : ∀ c ∈ u.toList.getLast?, Text.isBlankChar c = false) : ofText (u ++ "/") = ofText u := by
  have htrim : Text.trimChars (u.toList ++ ['/']) = Text.trimChars u.toList ++ ['/'] :=
    Text.trimChars_concat h (by decide)
  have hslash : (u ++ "/").toList = u.toList ++ ['/'] := String.toList_append
  rw [← String.toList_inj, toList_ofText, toList_ofText, hslash, htrim, ofChars_append_slash]

/-- A text with neither white space around it nor a slash at its end, if it is a way to write a
provider, leads to that provider's discovery address. -/
theorem ofText_of_spells {u : String} (htrim : Text.trim u = u) (hend : ¬ ['/'] <:+ u.toList)
    (h : Spells b.toList u.toList) : ofText u = b ++ "/.well-known/openid-configuration" := by
  have htrim : Text.trimChars u.toList = u.toList := by rw [← Text.toList_trim, htrim]
  rw [← String.toList_inj, toList_ofText, htrim, ofChars_eq_ofBase, withoutSlashes_eq_self hend,
    ofBase_of_spells h, String.toList_append]
  rfl

theorem trim_append (hb : Text.trim b = b) (hx : Text.trim x = x) :
    Text.trim (b ++ x) = b ++ x := by
  rw [← String.toList_inj, Text.toList_trim] at hb hx ⊢
  rw [String.toList_append, Text.trimChars_append hb hx]

theorem ofText_wellKnown (htrim : Text.trim b = b) :
    ofText (b ++ "/.well-known") = b ++ "/.well-known/openid-configuration" := by
  have hlist : (b ++ "/.well-known").toList = b.toList ++ wellKnown := String.toList_append
  apply ofText_of_spells (trim_append htrim (by decide))
  · rw [hlist]
    exact not_suffix_append _ (by decide) (by decide)
  · rw [hlist]
    exact .directory

theorem ofText_document (htrim : Text.trim b = b) (hne : x ≠ "")
    (hx : ∀ c ∈ x.toList, c ≠ '/' ∧ Text.isBlankChar c = false) (hname : x ≠ ".well-known") :
    ofText (b ++ "/.well-known/" ++ x) = b ++ "/.well-known/openid-configuration" := by
  have hlist : (b ++ "/.well-known/" ++ x).toList = b.toList ++ wellKnown ++ '/' :: x.toList := by
    rw [String.toList_append, String.toList_append, List.append_assoc, List.append_assoc]
    rfl
  have hslash : '/' ∉ x.toList := fun hmem => (hx _ hmem).1 rfl
  have htrimx : Text.trim x = x := by
    rw [← String.toList_inj, Text.toList_trim]
    exact Text.trimChars_of_forall fun c hc => (hx c hc).2
  apply ofText_of_spells (trim_append (trim_append htrim (by decide)) htrimx)
  · rw [String.toList_append, List.singleton_suffix_iff_getLast?_eq_some]
    intro hlast
    rw [List.getLast?_append_of_ne_nil _ (fun hnil => hne (String.toList_inj.mp hnil))] at hlast
    exact hslash (List.mem_of_getLast? hlast)
  · rw [hlist]
    exact .document x.toList hslash fun hpart => hname (String.toList_inj.mp hpart)

/-- A text has one discovery address, in whichever way it is written. The address is its own
discovery address, a slash at the end of a text makes no difference, and a provider is found from
its bare address, from the well-known path and from any document there. -/
theorem ofText_canonical :
    (∀ u, (∃ p, ofText u = p ++ "/.well-known/openid-configuration") ∧
      ofText (ofText u) = ofText u) ∧
    (∀ u : String, (∀ c ∈ u.toList.getLast?, Text.isBlankChar c = false) →
      ofText (u ++ "/") = ofText u) ∧
    ∀ b : String, Text.trim b = b → ¬ ['/'] <:+ b.toList → ¬ wellKnown <:+ b.toList →
      lastButOne? b.toList ≠ some wellKnownPart →
      (∀ u ∈ [b, b ++ "/", b ++ "/.well-known", b ++ "/.well-known/",
          b ++ "/.well-known/openid-configuration"],
        ofText u = b ++ "/.well-known/openid-configuration") ∧
      ∀ x : String, x ≠ "" → (∀ c ∈ x.toList, c ≠ '/' ∧ Text.isBlankChar c = false) →
        x ≠ ".well-known" →
        ofText (b ++ "/.well-known/" ++ x) = b ++ "/.well-known/openid-configuration" := by
  refine ⟨fun u => ⟨?_, ofText_ofText u⟩, fun u => ofText_append_slash, ?_⟩
  · obtain ⟨p, -, haddress⟩ := exists_ofText_eq u
    exact ⟨p, haddress⟩
  intro b htrim hend hdirectory hpart
  have hlast : ∀ u : String, Text.trim u = u → ofText (u ++ "/") = ofText u := by
    intro u hu
    apply ofText_append_slash
    intro c hc
    rw [← hu, Text.toList_trim] at hc
    exact Text.not_isBlankChar_of_getLast? hc
  have hbare : ofText b = b ++ "/.well-known/openid-configuration" :=
    ofText_of_spells htrim hend (spells_self hdirectory hpart)
  have hpath : ofText (b ++ "/.well-known") = b ++ "/.well-known/openid-configuration" :=
    ofText_wellKnown htrim
  refine ⟨?_, fun x => ofText_document htrim⟩
  intro u hu
  simp only [List.mem_cons, List.not_mem_nil, or_false] at hu
  obtain rfl | rfl | rfl | rfl | rfl := hu
  · exact hbare
  · rw [hlast b htrim, hbare]
  · exact hpath
  · have hslash : b ++ "/.well-known/" = b ++ "/.well-known" ++ "/" := by
      rw [String.append_assoc]
      rfl
    rw [hslash, hlast _ (trim_append htrim (by decide)), hpath]
  · rw [← hbare, ofText_ofText]

theorem ofText_canonical_realm :
    ofText "https://idp.example/realms//" = ofText "https://idp.example/realms/" ∧
      ofText "https://idp.example/realms/test/.well-known/other-document" =
        "https://idp.example/realms/test/.well-known/openid-configuration" := by
  have hend : ∀ c ∈ "https://idp.example/realms/".toList.getLast?, Text.isBlankChar c = false := by
    intro c hc
    have hlast : "https://idp.example/realms/".toList.getLast? = some '/' := by decide
    rw [hlast] at hc
    rw [← Option.some.inj hc]
    decide
  have hname : ∀ c ∈ "other-document".toList, c ≠ '/' ∧ Text.isBlankChar c = false := by
    have hall : ("other-document".toList.all fun c => c != '/' && !Text.isBlankChar c) = true := by
      decide
    simpa only [List.all_eq_true, Bool.and_eq_true, bne_iff_ne, Bool.not_eq_true'] using hall
  constructor
  · exact ofText_canonical.2.1 "https://idp.example/realms/" hend
  · obtain ⟨-, hdocument⟩ := ofText_canonical.2.2 "https://idp.example/realms/test" (by decide)
      (by decide) (by decide) (by decide)
    exact hdocument "other-document" (by decide) hname (by decide)

end BearerAuth.DiscoveryAddress

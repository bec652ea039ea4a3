import Mathlib.Data.List.DropRight
import BearerAuth.Proofs.Key.Origin
import BearerAuth.Proofs.Recency.Order

/-! Which keys a cache still has after it has loaded a document. A document with more identifiers
than the cache has room for pushes its own first keys out again, the one that was asked for as well;
a key stays exactly when few enough other identifiers are listed after it. -/

namespace BearerAuth.CachedKeySet

open KeySet

/-- What a document lists after the last key of an identifier. -/
def listedAfter (keys : KeySet) (id : String) : List String :=
  (keys.map Prod.fst).rtakeWhile (· != id)

/-- Of a loaded document a key is known afterwards exactly when there is room for what is listed
after it, whatever was known before. -/
theorem peek?_keep {keys : KeySet} {id : String} {key : KeyMaterial}
    (h : lastOf keys id = some key) (c : CachedKeySet) (instant : Duration) :
    (c.keep instant keys).known.peek? id =
      if (listedAfter keys id).toFinset.card < 25 then some (key, instant) else none := by
  have hnames : (keys.map fun entry => (entry.1, entry.2, instant)).map Prod.fst =
      keys.map Prod.fst := by
    rw [List.map_map]
    rfl
  have hlisted : id ∈ keys.map Prod.fst := List.mem_map_of_mem (mem_of_lastOf h)
  have hkept : id ∈ (c.keep instant keys).known.keys ↔
      (listedAfter keys id).toFinset.card < 25 := by
    rw [← hnames] at hlisted
    have hwritten := RecencyMap.mem_keys_putAll_iff c.known hlisted
    rw [hnames] at hwritten
    exact hwritten
  rw [RecencyMap.mem_keys_iff] at hkept
  have hlookup : keys.reverse.lookup id = some key := h
  split
  · next hroom =>
    obtain ⟨found, hpeek⟩ := hkept.mpr hroom
    -- what is known of a listed identifier is what was written last for it
    rcases RecencyMap.peek?_of_putAll c.known hpeek with hwritten | ⟨hnone, -⟩
    · rw [← List.map_reverse, lookup_map_instant, hlookup] at hwritten
      rw [hpeek, ← hwritten]
      rfl
    · rw [← List.map_reverse, lookup_map_instant, hlookup] at hnone
      exact absurd hnone (Option.some_ne_none _)
  · next hfull =>
    apply Option.eq_none_iff_forall_ne_some.mpr
    intro found hpeek
    exact hfull (hkept.mp ⟨found, hpeek⟩)

/-- A key that is known and was used within the lifetime is given out, and nothing else happens but
that it is used. -/
theorem locate_of_fresh {c : CachedKeySet} {header : KeyHeader} {id : String} {key : KeyMaterial}
    {used : Duration} {w : Surroundings} (hid : header.requireKeyId = .ok id)
    (hpeek : c.known.peek? id = some (key, used)) (hfresh : w.instant - used < c.lifetime)
    (s : ProcessState) :
    c.locate header w s = ((.ok key, { c with known := c.known.put id (key, w.instant) }), s) := by
  unfold CachedKeySet.locate find
  rw [hid]
  simp only [Run.bind_apply, Run.surroundings, hpeek, hfresh, if_true]
  rfl

/-- What is not known is looked up in the document, and the document is kept. -/
theorem located_of_unknown {c : CachedKeySet} {header : KeyHeader} {id : String}
    {w : Surroundings} {keys : KeySet} {key : KeyMaterial} (hid : header.requireKeyId = .ok id)
    (hpeek : c.known.peek? id = none) (hkeys : publishedAt c.location w = .ok keys)
    (hlast : lastOf keys id = some key) (s : ProcessState) :
    (c.locate header w s).1 =
      (.ok key, { c with loads := c.loads + 1 }.keep w.instant keys) := by
  rw [locate_of_unknown hid hpeek, reload_apply, hkeys]
  dsimp only
  rw [hlast]

/-- A key that is found was known and is used, or the document lists it last under its identifier
and is kept as a whole. -/
theorem cases_of_located {c : CachedKeySet} {header : KeyHeader} {w : Surroundings}
    {s : ProcessState} {key : KeyMaterial} (h : (c.locate header w s).1.1 = .ok key) :
    ∃ id, header.requireKeyId = .ok id ∧
      ((c.locate header w s).1.2 = { c with known := c.known.put id (key, w.instant) } ∨
        ∃ keys, publishedAt c.location w = .ok keys ∧ lastOf keys id = some key ∧
          (c.locate header w s).1.2 =
            { c with known := c.known.erase id, loads := c.loads + 1 }.keep w.instant keys) := by
  rcases c.locate_cases header w s with ⟨e, -, hlocate⟩ | ⟨id, known, used, hid, -, hlocate⟩ |
    ⟨id, hid, hlocate⟩
  · rw [hlocate] at h
    exact nomatch h
  · rw [hlocate] at h ⊢
    obtain rfl := Except.ok.inj h
    exact ⟨id, hid, Or.inl rfl⟩
  · refine ⟨id, hid, Or.inr ?_⟩
    rw [hlocate, reload_apply] at h ⊢
    dsimp only at h ⊢
    cases hpublished : publishedAt c.location w with
    | error e =>
      rw [hpublished] at h
      exact nomatch h
    | ok keys =>
      rw [hpublished] at h
      dsimp only at h ⊢
      cases hlast : lastOf keys id with
      | none =>
        rw [hlast] at h
        exact nomatch h
      | some listed =>
        rw [hlast] at h
        obtain rfl := Except.ok.inj h
        exact ⟨keys, rfl, hlast, rfl⟩

/-- Looked up once more within the lifetime, a key that was found is given out without a load
exactly when it was known already, or fewer than twenty-five other identifiers are listed after it
in the document that was loaded for it. Otherwise the document is loaded again. -/
theorem locate_again_iff {c : CachedKeySet} {header : KeyHeader} {w w' : Surroundings}
    {s : ProcessState} {key : KeyMaterial} (hfound : (c.locate header w s).1.1 = .ok key)
    (hlasts : w'.instant - w.instant < c.lifetime) (s' : ProcessState) :
    let c' := (c.locate header w s).1.2
    let again := c'.locate header w' s'
    let stays := c'.loads = c.loads ∨ ∃ id keys, header.requireKeyId = .ok id ∧
      publishedAt c.location w = .ok keys ∧ (listedAfter keys id).toFinset.card < 25
    (again.1.1 = .ok key ∧ again.1.2.loads = c'.loads ∧ again.2 = s' ↔ stays) ∧
      (¬ stays → again.1.2.loads = c'.loads + 1) := by
  intro c' again stays
  obtain ⟨id, hid, hknown | ⟨keys, hpublished, hlast, hloaded⟩⟩ := cases_of_located hfound
  · -- the key was known, and its use has made it the most recent one
    have hc' : c' = { c with known := c.known.put id (key, w.instant) } := hknown
    have hpeek : c'.known.peek? id = some (key, w.instant) := by
      rw [hc']
      exact RecencyMap.peek?_put_self ..
    have hlifetime : c'.lifetime = c.lifetime := by rw [hc']
    have hfresh : w'.instant - w.instant < c'.lifetime := hlifetime ▸ hlasts
    have hagain : again = _ := locate_of_fresh hid hpeek hfresh s'
    have hloads : c'.loads = c.loads := by rw [hc']
    rw [hagain]
    exact ⟨iff_of_true ⟨rfl, rfl, rfl⟩ (Or.inl hloads), fun hlost => absurd (Or.inl hloads) hlost⟩
  · have hc' : c' =
        { c with known := c.known.erase id, loads := c.loads + 1 }.keep w.instant keys := hloaded
    have hloads : c'.loads = c.loads + 1 := by
      rw [hc']
      rfl
    have hpeek : c'.known.peek? id =
        if (listedAfter keys id).toFinset.card < 25 then some (key, w.instant) else none := by
      rw [hc']
      exact peek?_keep hlast _ w.instant
    have hlifetime : c'.lifetime = c.lifetime := by
      rw [hc']
      rfl
    by_cases hroom : (listedAfter keys id).toFinset.card < 25
    · have hstays : stays := Or.inr ⟨id, keys, hid, hpublished, hroom⟩
      have hfresh : w'.instant - w.instant < c'.lifetime := hlifetime ▸ hlasts
      rw [if_pos hroom] at hpeek
      have hagain : again = _ := locate_of_fresh hid hpeek hfresh s'
      rw [hagain]
      exact ⟨iff_of_true ⟨rfl, rfl, rfl⟩ hstays, fun hlost => absurd hstays hlost⟩
    · -- the keys that are listed after it have pushed it out
      have hlost : ¬ stays := by
        rintro (hknown | ⟨id', keys', hid', hpublished', hroom'⟩)
        · omega
        · obtain rfl := Except.ok.inj (hid.symm.trans hid')
          obtain rfl := Except.ok.inj (hpublished.symm.trans hpublished')
          exact hroom hroom'
      rw [if_neg hroom] at hpeek
      have hagain : again.1.2.loads = c'.loads + 1 := by
        have hreload : again = c'.reload id w' s' := locate_of_unknown hid hpeek w' s'
        rw [hreload]
        exact loads_reload c' id w' s'
      refine ⟨iff_of_false ?_ hlost, fun _ => hagain⟩
      rintro ⟨-, hsame, -⟩
      omega

/-- One identifier more than the cache has room for, each a letter. -/
def letters : List Char := "abcdefghijklmnopqrstuvwxyz".toList

def letterEntry (letter : Char) : List Char :=
  "\x7b\"kty\":\"oct\",\"kid\":\"".toList ++ letter :: "\",\"k\":\"MQ\"\x7d".toList

/-- The characters of a document with a key under each of these identifiers. -/
def crowdedChars : List Char :=
  "\x7b\"keys\":[".toList ++ [','].intercalate (letters.map letterEntry) ++ "]\x7d".toList

def crowdedKeys : KeySet := letters.map fun letter => (String.singleton letter, .secret [49])

def crowded : Surroundings :=
  { doubled with
    files :=
      { entries := [(["keys.json"], .file (Text.Utf8.encode (String.ofList crowdedChars)))] } }

/-- The text is read by its characters, which are at hand. -/
theorem ofDocument_crowdedChars :
    ofDocument (KeySetLocation.file "keys.json").text (String.ofList crowdedChars) =
      .ok crowdedKeys := by
  unfold ofDocument Json.read Json.document
  rw [String.toList_ofList]
  decide +kernel

set_option maxRecDepth 100000 in
theorem publishedAt_crowded : publishedAt (.file "keys.json") crowded = .ok crowdedKeys := by
  have hascii : Text.Utf8.isAscii (String.ofList crowdedChars) = true := by
    unfold Text.Utf8.isAscii
    rw [String.toList_ofList]
    decide
  have hdocument : (KeySetLocation.file "keys.json").documentAt crowded =
      .ok (String.ofList crowdedChars) :=
    KeySetLocation.documentAt_of_find (find_keysFile _) hascii
  rw [publishedAt_of_documentAt hdocument, ofDocument_crowdedChars]

/-- The first and the second key of the document, when they are looked up once and once more. -/
theorem locate_again_iff_crowded :
    let c : CachedKeySet := { location := .file "keys.json" }
    let first := c.locate ⟨some "a", .hs256⟩ crowded {}
    let second := c.locate ⟨some "b", .hs256⟩ crowded {}
    first.1.1 = .ok (.secret [49]) ∧ second.1.1 = .ok (.secret [49]) ∧
      (first.1.2.locate ⟨some "a", .hs256⟩ crowded first.2).1.2.loads = first.1.2.loads + 1 ∧
      (second.1.2.locate ⟨some "b", .hs256⟩ crowded second.2).1.2.loads = second.1.2.loads := by
  intro c first second
  have hlasts : crowded.instant - crowded.instant < c.lifetime := by decide
  have ha : KeyHeader.requireKeyId ⟨some "a", .hs256⟩ = .ok "a" := by decide
  have hb : KeyHeader.requireKeyId ⟨some "b", .hs256⟩ = .ok "b" := by decide
  have hfirst : first.1 = _ := located_of_unknown ha rfl publishedAt_crowded
    (show lastOf crowdedKeys "a" = some (.secret [49]) by decide) {}
  have hsecond : second.1 = _ := located_of_unknown hb rfl publishedAt_crowded
    (show lastOf crowdedKeys "b" = some (.secret [49]) by decide) {}
  have hfound : first.1.1 = .ok (.secret [49]) := by rw [hfirst]
  have hfound' : second.1.1 = .ok (.secret [49]) := by rw [hsecond]
  obtain ⟨-, hlost⟩ := locate_again_iff hfound hlasts first.2
  obtain ⟨hstays, -⟩ := locate_again_iff hfound' hlasts second.2
  refine ⟨hfound, hfound', hlost ?_, (hstays.mpr (Or.inr ?_)).2.1⟩
  · rintro (hloads | ⟨id, keys, hid, hkeys, hroom⟩)
    · rw [show (c.locate ⟨some "a", .hs256⟩ crowded {}).1 = _ from hfirst] at hloads
      exact absurd hloads (by decide)
    · obtain rfl := Except.ok.inj (ha.symm.trans hid)
      obtain rfl := Except.ok.inj (publishedAt_crowded.symm.trans hkeys)
      exact absurd hroom (by decide)
  · exact ⟨"b", crowdedKeys, hb, publishedAt_crowded, by decide⟩

/-- The first key of the document is found twice in turn, and the document is loaded twice. -/
theorem locate_twice_crowded :
    let c : CachedKeySet := { location := .file "keys.json" }
    let first := c.locate ⟨some "a", .hs256⟩ crowded {}
    let again := first.1.2.locate ⟨some "a", .hs256⟩ crowded first.2
    first.1.1 = .ok (.secret [49]) ∧ first.1.2.loads = 1 ∧
      again.1.1 = .ok (.secret [49]) ∧ again.1.2.loads = 2 := by
  intro c first again
  have ha : KeyHeader.requireKeyId ⟨some "a", .hs256⟩ = .ok "a" := by decide
  have hlast : lastOf crowdedKeys "a" = some (.secret [49]) := by decide
  have hfirst : first.1 = _ := located_of_unknown ha rfl publishedAt_crowded hlast {}
  have hpeek : first.1.2.known.peek? "a" = none := by
    rw [hfirst, peek?_keep hlast, if_neg (by decide)]
  have hlocation : publishedAt first.1.2.location crowded = .ok crowdedKeys := by
    rw [hfirst]
    exact publishedAt_crowded
  have hagain : again.1 = _ := located_of_unknown ha hpeek hlocation hlast first.2
  rw [hagain, hfirst]
  exact ⟨rfl, rfl, rfl, rfl⟩

end BearerAuth.CachedKeySet

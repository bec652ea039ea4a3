import BearerAuth.Proofs.Key.Loads

namespace BearerAuth

theorem KeyHeader.requireKeyId_of_keyId {header : KeyHeader} {id : String}
    (hid : header.keyId = some id) (hblank : Text.isBlank id = false) :
    header.requireKeyId = .ok (Text.trim id) := by
  have hsome : Text.nonBlank? id = some (Text.trim id) := by
    unfold Text.nonBlank?
    exact if_neg (Bool.eq_false_iff.mp hblank)
  unfold requireKeyId
  rw [hid, Option.bind_some, hsome]

namespace KeySet

variable {keys : KeySet} {id : String} {key : KeyMaterial}

/-- No entry under a blank identifier is kept. -/
theorem not_isBlank_of_kept {entry : Json} (h : entry? entry = some (id, key)) :
    Text.isBlank id = false := by
  unfold entry? at h
  obtain ⟨jwk, -, h⟩ := Option.bind_eq_some_iff.mp h
  obtain ⟨name, -, h⟩ := Option.bind_eq_some_iff.mp h
  cases hblank : Text.isBlank name with
  | true =>
    rw [hblank] at h
    exact nomatch h
  | false =>
    rw [hblank] at h
    obtain ⟨rfl, -⟩ := Prod.mk.inj (Option.some.inj h)
    exact hblank

/-- What a document publishes is what is kept of its list of entries. -/
theorem exists_entries_of_ofDocument {uri document : String}
    (h : ofDocument uri document = .ok keys) :
    ∃ v entries, Json.read document = .ok v ∧
      (v.member? "keys").bind Json.array? = some entries ∧ entries.filterMap entry? = keys := by
  cases hread : Json.read document with
  | error e =>
    rw [ofDocument_of_unread _ hread] at h
    exact nomatch h
  | ok v =>
    cases hentries : (v.member? "keys").bind Json.array? with
    | none =>
      rw [ofDocument_of_keyless _ hread hentries] at h
      exact nomatch h
    | some entries =>
      rw [ofDocument_of_entries _ hread hentries] at h
      exact ⟨v, entries, rfl, hentries, Except.ok.inj h⟩

/-- What chooses among the keys that are listed under an identifier, and finds one if there is
any. -/
structure Chooses (choose : KeySet → String → Option KeyMaterial) : Prop where
  listed : ∀ {keys id key}, choose keys id = some key → (id, key) ∈ keys
  finds : ∀ {keys id}, id ∈ keys.map Prod.fst → ∃ key, choose keys id = some key

theorem chooses_first : Chooses fun keys id => keys.lookup id where
  listed := by
    intro keys id key h
    obtain ⟨before, after, hsplit, -⟩ := List.lookup_eq_some_iff.mp h
    rw [hsplit]
    exact List.mem_append_right before List.mem_cons_self
  finds := by
    intro keys id h
    -- the last of the keys in reverse order is the first one
    have hreversed : id ∈ keys.reverse.map Prod.fst := by
      rw [List.map_reverse]
      exact List.mem_reverse.mpr h
    obtain ⟨key, hkey⟩ := CachedKeySet.exists_lastOf hreversed
    rw [CachedKeySet.lastOf, List.reverse_reverse] at hkey
    exact ⟨key, hkey⟩

theorem chooses_last : Chooses CachedKeySet.lastOf where
  listed := CachedKeySet.mem_of_lastOf
  finds := CachedKeySet.exists_lastOf

/-- A look-up that comes to a key that is listed under an identifier. -/
def Gives (keys : KeySet) (id : String) (found : Except KeyError KeyMaterial) : Prop :=
  ∃ key, found = .ok key ∧ (id, key) ∈ keys

section Answer

variable {choose : KeySet → String → Option KeyMaterial} {header : KeyHeader} {name : String}

theorem Chooses.answer_of_unlisted (h : Chooses choose) (hname : header.requireKeyId = .ok name)
    (hunlisted : name ∉ keys.map Prod.fst) (location : KeySetLocation) :
    answer location choose (.ok keys) header = .error (.keyNotFound name location.text) := by
  have hnone : choose keys name = none := by
    apply Option.eq_none_iff_forall_ne_some.mpr
    intro key hkey
    exact hunlisted (List.mem_map_of_mem (h.listed hkey))
  unfold answer
  rw [hname]
  dsimp only
  rw [hnone]

/-- A header that asks for one identifier gets a key of another one only if both have it. -/
theorem Chooses.gives_answer_iff (h : Chooses choose) (hname : header.requireKeyId = .ok name)
    (hlisted : id ∈ keys.map Prod.fst) (location : KeySetLocation) :
    Gives keys id (answer location choose (.ok keys) header) ↔
      name = id ∨ ∃ key, choose keys name = some key ∧ (id, key) ∈ keys := by
  unfold answer
  rw [hname]
  dsimp only
  cases hchoice : choose keys name with
  | some key =>
    constructor
    · rintro ⟨key', hfound, hmem⟩
      obtain rfl := Except.ok.inj hfound
      exact Or.inr ⟨key, rfl, hmem⟩
    · rintro (rfl | ⟨key', hkey', hmem⟩)
      · exact ⟨key, rfl, h.listed hchoice⟩
      · obtain rfl := Option.some.inj hkey'
        exact ⟨key, rfl, hmem⟩
  | none =>
    apply iff_of_false
    · rintro ⟨key, hfound, -⟩
      exact nomatch hfound
    · rintro (rfl | ⟨key, hkey, -⟩)
      · obtain ⟨key, hkey⟩ := h.finds hlisted
        exact nomatch hchoice.symm.trans hkey
      · exact nomatch hkey

end Answer

end KeySet

namespace CachedKeySet

open KeySet

/-- A cache that knows nothing yet answers by the key that is listed last. -/
theorem fst_locate_of_cold {c : CachedKeySet} (hcold : c.known = {}) (header : KeyHeader)
    (w : Surroundings) (s : ProcessState) :
    (c.locate header w s).1.1 = answer c.location lastOf (publishedAt c.location w) header := by
  have hreflects : c.Reflects (publishedAt c.location w) := reflects_of_empty hcold
  exact (hreflects.locate header s).1

/-- An entry that a document's reader keeps is found by its own identifier exactly when there are no
blanks around that, or the key that is chosen for the trimmed one is listed under it as well; a
trimmed identifier that is not listed is not found. This holds of a look-up without a cache, which
chooses the first key of an identifier, and of one through a cold cache, which chooses the last. -/
theorem locate_entry_iff {c : CachedKeySet} (hcold : c.known = {}) {w : Surroundings}
    {document : String} {v : Json} {entries : List Json} {entry : Json} {id : String}
    {key : KeyMaterial} (hdocument : c.location.documentAt w = .ok document)
    (hread : Json.read document = .ok v)
    (hentries : (v.member? "keys").bind Json.array? = some entries) (hentry : entry ∈ entries)
    (hkept : entry? entry = some (id, key)) (header : KeyHeader) (hid : header.keyId = some id)
    (s s' : ProcessState) :
    let keys := entries.filterMap entry?
    let plain := (KeySet.locate c.location header w s).1
    let cached := (c.locate header w s').1.1
    (Gives keys id plain ↔
        Text.trim id = id ∨ ∃ found, keys.lookup (Text.trim id) = some found ∧ (id, found) ∈ keys) ∧
      (Gives keys id cached ↔
        Text.trim id = id ∨ ∃ found, lastOf keys (Text.trim id) = some found ∧ (id, found) ∈ keys) ∧
      (Text.trim id ∉ keys.map Prod.fst →
        plain = .error (.keyNotFound (Text.trim id) c.location.text) ∧
          cached = .error (.keyNotFound (Text.trim id) c.location.text)) := by
  intro keys plain cached
  have hname : header.requireKeyId = .ok (Text.trim id) :=
    KeyHeader.requireKeyId_of_keyId hid (not_isBlank_of_kept hkept)
  have hpublished : publishedAt c.location w = .ok keys := by
    rw [publishedAt_of_documentAt hdocument]
    exact ofDocument_of_entries _ hread hentries
  have hlisted : id ∈ keys.map Prod.fst :=
    List.mem_map_of_mem (List.mem_filterMap.mpr ⟨entry, hentry, hkept⟩)
  have hplain : plain = answer c.location (fun keys id => keys.lookup id) (.ok keys) header := by
    rw [← hpublished]
    exact fst_locate c.location header w s
  have hcached : cached = answer c.location lastOf (.ok keys) header := by
    rw [← hpublished]
    exact fst_locate_of_cold hcold header w s'
  -- the two differ in the choice alone
  rw [hplain, hcached]
  refine ⟨?_, ?_, ?_⟩
  · exact chooses_first.gives_answer_iff hname hlisted c.location
  · exact chooses_last.gives_answer_iff hname hlisted c.location
  · intro hunlisted
    exact ⟨chooses_first.answer_of_unlisted hname hunlisted c.location,
      chooses_last.answer_of_unlisted hname hunlisted c.location⟩

/-- A document with a blank before one of its two identifiers, and with an entry that is no key. -/
def paddedText : String :=
  "\x7b\"keys\":[\x7b\"kty\":\"oct\",\"kid\":\" a\",\"k\":\"MQ\"\x7d,7," ++
    "\x7b\"kty\":\"oct\",\"kid\":\"b\",\"k\":\"Mg\"\x7d]\x7d"

def padded : Surroundings :=
  { doubled with files := { entries := [(["keys.json"], .file (Text.Utf8.encode paddedText))] } }

theorem documentAt_padded :
    (KeySetLocation.file "keys.json").documentAt padded = .ok paddedText :=
  KeySetLocation.documentAt_of_find (find_keysFile _) (by decide)

/-- The secrets of the document, under the identifiers as they are written. -/
def paddedKeys : KeySet := [(" a", .secret [49]), ("b", .secret [50])]

theorem ofDocument_paddedText :
    ofDocument (KeySetLocation.file "keys.json").text paddedText = .ok paddedKeys := by
  decide +kernel

/-- A key under an identifier without blanks is found; the one whose identifier begins with a blank
is not, though the header repeats that as it is. -/
theorem locate_entry_iff_padded :
    let c : CachedKeySet := { location := .file "keys.json" }
    let plain (header : KeyHeader) := (KeySet.locate c.location header padded {}).1
    let cached (header : KeyHeader) := (c.locate header padded {}).1.1
    Gives paddedKeys "b" (plain ⟨some "b", .hs256⟩) ∧
      Gives paddedKeys "b" (cached ⟨some "b", .hs256⟩) ∧
      plain ⟨some " a", .hs256⟩ = .error (.keyNotFound "a" "file://keys.json") ∧
      cached ⟨some " a", .hs256⟩ = .error (.keyNotFound "a" "file://keys.json") := by
  intro c plain cached
  obtain ⟨v, entries, hread, hentries, hkeys⟩ := exists_entries_of_ofDocument ofDocument_paddedText
  have hpadded : (" a", KeyMaterial.secret [49]) ∈ entries.filterMap entry? := by
    rw [hkeys]
    exact List.mem_cons_self
  have htrimmed : ("b", KeyMaterial.secret [50]) ∈ entries.filterMap entry? := by
    rw [hkeys]
    exact List.mem_cons_of_mem _ List.mem_cons_self
  obtain ⟨first, hfirst, hkeptFirst⟩ := List.mem_filterMap.mp hpadded
  obtain ⟨second, hsecond, hkeptSecond⟩ := List.mem_filterMap.mp htrimmed
  obtain ⟨hplain, hcached, -⟩ := locate_entry_iff (c := c) rfl documentAt_padded hread hentries
    hsecond hkeptSecond ⟨some "b", .hs256⟩ rfl {} {}
  obtain ⟨-, -, hneither⟩ := locate_entry_iff (c := c) rfl documentAt_padded hread hentries
    hfirst hkeptFirst ⟨some " a", .hs256⟩ rfl {} {}
  have hb : Text.trim "b" = "b" := by decide
  have ha : Text.trim " a" = "a" := by decide
  rw [hkeys] at hplain hcached hneither
  rw [ha] at hneither
  exact ⟨hplain.mpr (Or.inl hb), hcached.mpr (Or.inl hb), hneither (by decide)⟩

/-- The key under the identifier that begins with a blank is published, and found by neither. -/
theorem locate_padded_published :
    let c : CachedKeySet := { location := .file "keys.json" }
    let header : KeyHeader := ⟨some " a", .hs256⟩
    publishedAt c.location padded = .ok paddedKeys ∧
      ¬ Gives paddedKeys " a" (KeySet.locate c.location header padded {}).1 ∧
      ¬ Gives paddedKeys " a" (c.locate header padded {}).1.1 := by
  intro c header
  have hpublished : publishedAt c.location padded = .ok paddedKeys := by
    rw [publishedAt_of_documentAt documentAt_padded, ofDocument_paddedText]
  have hid : header.requireKeyId = .ok "a" := by decide
  have hlisted : " a" ∈ paddedKeys.map Prod.fst := by decide
  refine ⟨hpublished, ?_, ?_⟩
  · rw [fst_locate, hpublished, chooses_first.gives_answer_iff hid hlisted]
    decide
  · rw [fst_locate_of_cold rfl, hpublished, chooses_last.gives_answer_iff hid hlisted]
    decide

end CachedKeySet

end BearerAuth

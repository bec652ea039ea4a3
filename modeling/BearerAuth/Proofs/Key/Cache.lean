import Mathlib
import BearerAuth.Key.Cache
import BearerAuth.Proofs.Key.Published
import BearerAuth.Proofs.Recency
import BearerAuth.Proofs.Surroundings.Course

/-! A cache in front of a published key set, as long as the document does not change. What is known
is what the document lists last for an identifier, so the cache answers as a look-up of the last
listed key would, whatever was looked up, forgotten or dropped before. -/

namespace BearerAuth

open KeySet

namespace CachedKeySet

/-- A key is found if it is known and was used within the lifetime, and it is then used. Otherwise
nothing is known of the identifier afterwards. -/
theorem find_cases (c : CachedKeySet) (instant : Duration) (id : String) :
    (∃ key used, c.known.peek? id = some (key, used) ∧ instant - used < c.lifetime ∧
      c.find instant id = (some key, { c with known := c.known.put id (key, instant) })) ∨
    ((∀ key used, c.known.peek? id = some (key, used) → ¬ instant - used < c.lifetime) ∧
      c.find instant id = (none, { c with known := c.known.erase id })) := by
  unfold find
  cases hpeek : c.known.peek? id with
  | none =>
    refine Or.inr ⟨nofun, ?_⟩
    rw [RecencyMap.erase_of_peek?_eq_none c.known hpeek]
  | some entry =>
    obtain ⟨key, used⟩ := entry
    by_cases hfresh : instant - used < c.lifetime
    · refine Or.inl ⟨key, used, rfl, hfresh, ?_⟩
      simp only [hfresh, if_true]
    · refine Or.inr ⟨?_, ?_⟩
      · rintro _ _ ⟨⟩
        exact hfresh
      · simp only [hfresh, if_false]

variable {c : CachedKeySet}

/-- Nothing is known but keys of some kind for identifiers. -/
def OnlyKnows (c : CachedKeySet) (Q : String → KeyMaterial → Prop) : Prop :=
  ∀ id key used, c.known.peek? id = some (key, used) → Q id key

section OnlyKnows

variable {Q : String → KeyMaterial → Prop}

theorem onlyKnows_of_empty (h : c.known = {}) : c.OnlyKnows Q := by
  intro id key used hpeek
  rw [h] at hpeek
  exact nomatch hpeek

/-- The use of a key that is known changes nothing in what is known. -/
theorem OnlyKnows.put (h : c.OnlyKnows Q) {id : String} {key : KeyMaterial} {used : Duration}
    (hpeek : c.known.peek? id = some (key, used)) (instant : Duration) :
    { c with known := c.known.put id (key, instant) }.OnlyKnows Q := by
  intro other key' used' hother
  rcases RecencyMap.peek?_of_put c.known hother with ⟨rfl, ⟨⟩⟩ | ⟨-, hbefore⟩
  · exact h other key used hpeek
  · exact h other key' used' hbefore

theorem OnlyKnows.erase (h : c.OnlyKnows Q) (id : String) :
    { c with known := c.known.erase id }.OnlyKnows Q := by
  intro other key used hother
  change (c.known.erase id).peek? other = some (key, used) at hother
  rw [RecencyMap.peek?_erase] at hother
  split at hother
  · exact nomatch hother
  · exact h other key used hother

theorem lookup_map_instant (keys : KeySet) (instant : Duration) (id : String) :
    (keys.map fun (id, key) => (id, key, instant)).lookup id =
      (keys.lookup id).map fun key => (key, instant) := by
  induction keys with
  | nil => rfl
  | cons entry keys ih =>
    obtain ⟨name, key⟩ := entry
    rw [List.map_cons, List.lookup_cons, List.lookup_cons, ih]
    cases id == name with
    | true => rfl
    | false => rfl

/-- Loaded keys are kept as they are listed, the last one of an identifier in place of the others
and of the one that was known before. -/
theorem OnlyKnows.keep {Q' : String → KeyMaterial → Prop} {keys : KeySet} (h : c.OnlyKnows Q)
    (hlisted : ∀ id key, lastOf keys id = some key → Q' id key)
    (hunlisted : ∀ id key, lastOf keys id = none → Q id key → Q' id key) (instant : Duration) :
    (c.keep instant keys).OnlyKnows Q' := by
  intro id key used hpeek
  have hlookup := lookup_map_instant keys.reverse instant id
  rcases RecencyMap.peek?_of_putAll c.known hpeek with hloaded | ⟨hnone, hbefore⟩
  · rw [← List.map_reverse, hlookup] at hloaded
    obtain ⟨_, hlast, ⟨⟩⟩ := Option.map_eq_some_iff.mp hloaded
    exact hlisted id key hlast
  · rw [← List.map_reverse, hlookup, Option.map_eq_none_iff] at hnone
    exact hunlisted id key hnone (h id key used hbefore)

end OnlyKnows

/-- What is known is what published keys list last. -/
def Reflects (c : CachedKeySet) (published : Except KeyError KeySet) : Prop :=
  ∀ id key used, c.known.peek? id = some (key, used) →
    ∃ keys, published = .ok keys ∧ lastOf keys id = some key

variable {published : Except KeyError KeySet}

theorem Reflects.of_known {c c' : CachedKeySet} (h : c.Reflects published)
    (hknown : c'.known = c.known) : c'.Reflects published := by
  unfold Reflects
  rw [hknown]
  exact h

theorem reflects_of_empty (h : c.known = {}) : c.Reflects published := onlyKnows_of_empty h

theorem Reflects.keep {keys : KeySet} (h : c.Reflects (.ok keys)) (instant : Duration) :
    (c.keep instant keys).Reflects (.ok keys) :=
  OnlyKnows.keep h (fun _ _ hlast => ⟨keys, rfl, hlast⟩) (fun _ _ _ hbefore => hbefore) instant

/-- A reload answers by the document that it loads, and keeps all of it. -/
theorem reload_apply (c : CachedKeySet) (id : String) (w : Surroundings) (s : ProcessState) :
    (c.reload id w s).1 =
      match publishedAt c.location w with
      | .error e => (.error e, { c with loads := c.loads + 1 })
      | .ok keys =>
        (match lastOf keys id with
          | some key => .ok key
          | none => .error (.keyNotFound id c.location.text),
        { c with loads := c.loads + 1 }.keep w.instant keys) := by
  unfold reload
  simp only [Run.bind_apply, fst_load]
  cases publishedAt c.location w with
  | error e => rfl
  | ok keys =>
    simp only [Run.bind_apply]
    cases lastOf keys id with
    | some key => rfl
    | none => rfl

/-- A look-up is refused for want of an identifier, is answered by what is known, or loads the
document. -/
theorem locate_cases (c : CachedKeySet) (header : KeyHeader) (w : Surroundings)
    (s : ProcessState) :
    (∃ e, header.requireKeyId = .error e ∧ c.locate header w s = ((.error e, c), s)) ∨
    (∃ id key used, header.requireKeyId = .ok id ∧ c.known.peek? id = some (key, used) ∧
      c.locate header w s =
        ((.ok key, { c with known := c.known.put id (key, w.instant) }), s)) ∨
    (∃ id, header.requireKeyId = .ok id ∧
      c.locate header w s = { c with known := c.known.erase id }.reload id w s) := by
  unfold CachedKeySet.locate
  cases header.requireKeyId with
  | error e => exact Or.inl ⟨e, rfl, rfl⟩
  | ok id =>
    simp only [Run.bind_apply, Run.surroundings]
    rcases c.find_cases w.instant id with ⟨key, used, hpeek, -, hfound⟩ | ⟨-, hmissed⟩
    · refine Or.inr (Or.inl ⟨id, key, used, rfl, hpeek, ?_⟩)
      rw [hfound]
      rfl
    · refine Or.inr (Or.inr ⟨id, rfl, ?_⟩)
      rw [hmissed]

/-- A look-up of what is not known loads the document. -/
theorem locate_of_unknown {header : KeyHeader} {id : String} (hid : header.requireKeyId = .ok id)
    (hpeek : c.known.peek? id = none) (w : Surroundings) (s : ProcessState) :
    c.locate header w s = c.reload id w s := by
  rcases c.locate_cases header w s with ⟨e, he, -⟩ | ⟨id', key, used, hid', hknown, -⟩ |
    ⟨id', hid', hlocate⟩
  · exact nomatch he.symm.trans hid
  · obtain rfl := Except.ok.inj (hid.symm.trans hid')
    exact nomatch hpeek.symm.trans hknown
  · obtain rfl := Except.ok.inj (hid.symm.trans hid')
    rw [hlocate, RecencyMap.erase_of_peek?_eq_none c.known hpeek]

/-- A cache that reflects the keys at its location answers by the last one listed, and goes on
reflecting them. -/
theorem Reflects.locate {w : Surroundings} (h : c.Reflects (publishedAt c.location w))
    (header : KeyHeader) (s : ProcessState) :
    (c.locate header w s).1.1 = answer c.location lastOf (publishedAt c.location w) header ∧
      (c.locate header w s).1.2.location = c.location ∧
      (c.locate header w s).1.2.Reflects (publishedAt c.location w) := by
  unfold answer
  rcases c.locate_cases header w s with ⟨e, hid, hlocate⟩ | ⟨id, key, used, hid, hpeek, hlocate⟩ |
    ⟨id, hid, hlocate⟩
  · rw [hlocate, hid]
    exact ⟨rfl, rfl, h⟩
  · obtain ⟨keys, hkeys, hlast⟩ := h id key used hpeek
    rw [hlocate, hid, hkeys]
    refine ⟨?_, rfl, ?_⟩
    · simp only [hlast]
    · rw [← hkeys]
      exact OnlyKnows.put h hpeek w.instant
  · -- what is left after the search reflects the keys, and loading them changes nothing in that
    have hleft : Reflects _ (publishedAt c.location w) := OnlyKnows.erase h id
    rw [hlocate, hid, reload_apply]
    cases hpublished : publishedAt c.location w with
    | error e =>
      rw [hpublished] at hleft
      exact ⟨rfl, rfl, hleft.of_known rfl⟩
    | ok keys =>
      rw [hpublished] at hleft
      refine ⟨rfl, rfl, Reflects.keep ?_ w.instant⟩
      exact hleft.of_known rfl

/-- One thing that is done to a cache. -/
inductive Step where
  | lookUp (header : KeyHeader)
  | clear

def perform (c : CachedKeySet) : Step → Run CachedKeySet
  | .lookUp header => do
    let (_, c) ← c.locate header
    return c
  | .clear => pure c.clear

/-- While the document at its location stays the same, a cache goes on reflecting it. -/
theorem Reflects.course (h : c.Reflects published) {moments : List (Surroundings × Step)}
    (hsame : ∀ w step, (w, step) ∈ moments → publishedAt c.location w = published)
    (s : ProcessState) :
    (Run.course perform c moments s).1.location = c.location ∧
      (Run.course perform c moments s).1.Reflects published := by
  let kept (c' : CachedKeySet) : Prop := c'.location = c.location ∧ c'.Reflects published
  refine Run.course_keeps (P := kept) ?_ ⟨rfl, h⟩ s
  · rintro w step hmem c' s' ⟨hlocation, hreflects⟩
    cases step with
    | clear => exact ⟨hlocation, reflects_of_empty rfl⟩
    | lookUp header =>
      have hpublished : publishedAt c'.location w = published := by
        rw [hlocation]
        exact hsame w _ hmem
      rw [← hpublished] at hreflects
      obtain ⟨-, hstays, hnext⟩ := hreflects.locate header s'
      rw [hpublished] at hnext
      exact ⟨hstays.trans hlocation, hnext⟩

/-- In front of a document that does not change, a cache that started empty gives a header what a
look-up without a cache gives, exactly when the identifier of the header has the same key at its
first and at its last place in the document. -/
theorem locate_eq_uncached_iff {c : CachedKeySet} (hcold : c.known = {})
    {document : Except KeyError String} {moments : List (Surroundings × Step)} {w : Surroundings}
    (hsame : ∀ moment ∈ moments, c.location.documentAt moment.1 = document)
    (hnow : c.location.documentAt w = document) (header : KeyHeader) (s s' s'' : ProcessState) :
    ((Run.course perform c moments s).1.locate header w s').1.1 =
        (KeySet.locate c.location header w s'').1 ↔
      ∀ keys id, document.bind (ofDocument c.location.text) = .ok keys →
        header.requireKeyId = .ok id → keys.lookup id = lastOf keys id := by
  have hpublished : publishedAt c.location w = document.bind (ofDocument c.location.text) := by
    rw [publishedAt, hnow]
  have hunchanged : ∀ w' step, (w', step) ∈ moments →
      publishedAt c.location w' = publishedAt c.location w := by
    intro w' step hmem
    rw [hpublished, publishedAt, hsame (w', step) hmem]
  have hstart : c.Reflects (publishedAt c.location w) := reflects_of_empty hcold
  obtain ⟨hlocation, hreflects⟩ := hstart.course hunchanged s
  rw [← hlocation] at hreflects
  obtain ⟨hanswer, -, -⟩ := hreflects.locate header s'
  rw [hanswer, fst_locate, hlocation, answer_eq_iff, hpublished]
  constructor
  · intro h keys id hkeys hid
    exact (h keys id hkeys hid).symm
  · intro h keys id hkeys hid
    exact (h keys id hkeys hid).symm

/-- A document that publishes two secrets under one identifier and one under another. -/
def doubledText : String :=
  "\x7b\"keys\":[\x7b\"kty\":\"oct\",\"kid\":\"a\",\"k\":\"MQ\"\x7d," ++
    "\x7b\"kty\":\"oct\",\"kid\":\"b\",\"k\":\"Mg\"\x7d," ++
    "\x7b\"kty\":\"oct\",\"kid\":\"a\",\"k\":\"Mw\"\x7d]\x7d"

/-- The secrets are the digits one, two and three. -/
def doubledKeys : KeySet := [("a", .secret [49]), ("b", .secret [50]), ("a", .secret [51])]

def doubled : Surroundings where
  timeOfDay := 0
  instant := 0
  files := { entries := [(["keys.json"], .file (Text.Utf8.encode doubledText))] }
  environment := []
  network := fun _ => .unreachable

set_option maxRecDepth 100000 in
theorem find_keysFile (bytes : List UInt8) :
    FileSystem.find { entries := [(["keys.json"], .file bytes)] } "keys.json" =
      .ok (.file bytes) := by
  cbv

theorem documentAt_doubled :
    (KeySetLocation.file "keys.json").documentAt doubled = .ok doubledText :=
  KeySetLocation.documentAt_of_find (find_keysFile _) (by decide)

theorem ofDocument_doubledText :
    ofDocument (KeySetLocation.file "keys.json").text doubledText = .ok doubledKeys := by
  decide +kernel

theorem publishedAt_doubled : publishedAt (.file "keys.json") doubled = .ok doubledKeys := by
  rw [publishedAt_of_documentAt documentAt_doubled, ofDocument_doubledText]

/-- After the key that is published once was looked up, both look-ups give it, but they give
different keys for the identifier that is published twice. -/
theorem locate_eq_uncached_iff_doubled :
    let c : CachedKeySet := { location := .file "keys.json" }
    let once : KeyHeader := ⟨some "b", .hs256⟩
    let twice : KeyHeader := ⟨some "a", .hs256⟩
    let c' := (Run.course perform c [(doubled, .lookUp once)] {}).1
    (c'.locate once doubled {}).1.1 = (KeySet.locate c.location once doubled {}).1 ∧
      (c'.locate twice doubled {}).1.1 ≠ (KeySet.locate c.location twice doubled {}).1 := by
  intro c once twice c'
  have hsame : ∀ moment ∈ [(doubled, Step.lookUp once)],
      c.location.documentAt moment.1 = c.location.documentAt doubled := by
    intro moment hmem
    rw [List.mem_singleton.mp hmem]
  constructor
  · refine (locate_eq_uncached_iff rfl hsame rfl once {} {} {}).mpr ?_
    intro keys id hkeys hid
    obtain rfl := Except.ok.inj (publishedAt_doubled.symm.trans hkeys)
    have hb : once.requireKeyId = .ok "b" := by decide
    obtain rfl := Except.ok.inj (hb.symm.trans hid)
    decide
  · intro h
    have hfirst := (locate_eq_uncached_iff rfl hsame rfl twice {} {} {}).mp h doubledKeys "a"
      publishedAt_doubled (by decide)
    revert hfirst
    decide

/-- Of two keys under one identifier, an empty cache gives the second and a look-up without a cache
the first. -/
theorem locate_twice_published :
    (CachedKeySet.locate { location := .file "keys.json" } ⟨some "a", .hs256⟩ doubled {}).1.1 =
        .ok (.secret [51]) ∧
      (KeySet.locate (.file "keys.json") ⟨some "a", .hs256⟩ doubled {}).1 =
        .ok (.secret [49]) := by
  have hid : KeyHeader.requireKeyId ⟨some "a", .hs256⟩ = .ok "a" := by decide
  constructor
  · have hempty : CachedKeySet.Reflects { location := .file "keys.json" }
        (publishedAt (.file "keys.json") doubled) := reflects_of_empty rfl
    obtain ⟨hanswer, -, -⟩ := hempty.locate ⟨some "a", .hs256⟩ {}
    rw [hanswer, publishedAt_doubled]
    unfold answer
    rw [hid]
    decide
  · rw [fst_locate, publishedAt_doubled]
    unfold answer
    rw [hid]
    decide

end CachedKeySet

end BearerAuth

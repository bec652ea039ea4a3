import BearerAuth.Proofs.Key.Cache

namespace BearerAuth.CachedKeySet

open KeySet

/-- The keys that a step loads: those published at the moment, if the step counts as a load and they
can be had. -/
def loaded (c : CachedKeySet) (w : Surroundings) (s : ProcessState) (step : Step) : List KeySet :=
  if c.loads < (c.perform step w s).1.loads then (publishedAt c.location w).toOption.toList else []

/-- The key sets that are loaded in the course of time, in turn. -/
def loadings (c : CachedKeySet) (moments : List (Surroundings × Step)) (s : ProcessState) :
    List KeySet :=
  Run.notes perform loaded c moments s

/-- Of some key sets in turn, the latest that has a key for an identifier lists this one last. -/
def IsLatest (sets : List KeySet) (id : String) (key : KeyMaterial) : Prop :=
  ∃ before keys after, sets = before ++ keys :: after ∧ lastOf keys id = some key ∧
    ∀ later ∈ after, lastOf later id = none

theorem isLatest_append_of_listed {keys : KeySet} {id : String} {key : KeyMaterial}
    (h : lastOf keys id = some key) (sets : List KeySet) : IsLatest (sets ++ [keys]) id key :=
  ⟨sets, keys, [], rfl, h, nofun⟩

theorem IsLatest.append {sets : List KeySet} {keys : KeySet} {id : String} {key : KeyMaterial}
    (hlatest : IsLatest sets id key) (h : lastOf keys id = none) :
    IsLatest (sets ++ [keys]) id key := by
  obtain ⟨before, listing, after, rfl, hlast, hafter⟩ := hlatest
  refine ⟨before, listing, after ++ [keys], ?_, hlast, ?_⟩
  · rw [List.append_assoc, List.cons_append]
  · intro later hlater
    rcases List.mem_append.mp hlater with hold | hnew
    · exact hafter later hold
    · rw [List.mem_singleton.mp hnew]
      exact h

theorem mem_of_lastOf {keys : KeySet} {id : String} {key : KeyMaterial}
    (h : lastOf keys id = some key) : (id, key) ∈ keys := by
  obtain ⟨after, before, hsplit, -⟩ := List.lookup_eq_some_iff.mp h
  have hmem : (id, key) ∈ keys.reverse := by
    rw [hsplit]
    exact List.mem_append_right after List.mem_cons_self
  exact List.mem_reverse.mp hmem

/-- What ties a cache to the key sets that it has loaded. -/
structure GoesBackTo (c : CachedKeySet) (sets : List KeySet) : Prop where
  known : c.OnlyKnows (IsLatest sets)
  wellFormed : c.known.WellFormed

variable {c : CachedKeySet} {sets : List KeySet}

theorem goesBackTo_of_empty (h : c.known = {}) : c.GoesBackTo sets where
  known := onlyKnows_of_empty h
  wellFormed := by
    rw [h]
    exact RecencyMap.wellFormed_empty

theorem GoesBackTo.erase (h : c.GoesBackTo sets) (id : String) :
    { c with known := c.known.erase id }.GoesBackTo sets where
  known := h.known.erase id
  wellFormed := h.wellFormed.erase id

theorem GoesBackTo.keep {c' : CachedKeySet} {keys : KeySet} (h : c.GoesBackTo sets)
    (hknown : c'.known = c.known) (instant : Duration) :
    (c'.keep instant keys).GoesBackTo (sets ++ [keys]) where
  known := by
    have hbefore : c'.OnlyKnows (IsLatest sets) := by
      unfold OnlyKnows
      rw [hknown]
      exact h.known
    refine hbefore.keep ?_ ?_ instant
    · intro id key hlisted
      exact isLatest_append_of_listed hlisted sets
    · intro id key hunlisted hlatest
      exact hlatest.append hunlisted
  wellFormed := by
    have hbefore : c'.known.WellFormed := by
      rw [hknown]
      exact h.wellFormed
    exact hbefore.putAll _

/-- A reload is counted whether or not the document can be had. -/
theorem loads_reload (c : CachedKeySet) (id : String) (w : Surroundings) (s : ProcessState) :
    (c.reload id w s).1.2.loads = c.loads + 1 := by
  rw [reload_apply]
  cases publishedAt c.location w with
  | error e => rfl
  | ok keys => rfl

/-- A look-up gives a key only if that is the latest under its identifier, and what is known
afterwards goes back to what was loaded until then. -/
theorem GoesBackTo.lookUp (h : c.GoesBackTo sets) (header : KeyHeader) (w : Surroundings)
    (s : ProcessState) :
    (c.locate header w s).1.2.GoesBackTo (sets ++ c.loaded w s (.lookUp header)) ∧
      ∀ key, (c.locate header w s).1.1 = .ok key → ∃ id, header.requireKeyId = .ok id ∧
        IsLatest (sets ++ c.loaded w s (.lookUp header)) id key := by
  have hperform : (c.perform (.lookUp header) w s).1 = (c.locate header w s).1.2 := rfl
  unfold loaded
  rw [hperform]
  rcases c.locate_cases header w s with ⟨e, hid, hlocate⟩ | ⟨id, key, used, hid, hpeek, hlocate⟩ |
    ⟨id, hid, hlocate⟩
  · rw [hlocate, if_neg (Nat.lt_irrefl _), List.append_nil]
    exact ⟨h, nofun⟩
  · -- a known key is given out, and nothing is loaded
    rw [hlocate, if_neg (Nat.lt_irrefl _), List.append_nil]
    refine ⟨⟨h.known.put hpeek w.instant, h.wellFormed.put id (key, w.instant)⟩, ?_⟩
    rintro _ ⟨⟩
    exact ⟨id, hid, h.known id key used hpeek⟩
  · have hcount : c.loads < (c.locate header w s).1.2.loads := by
      rw [hlocate, loads_reload]
      exact Nat.lt_succ_self c.loads
    have hleft := h.erase id
    rw [if_pos hcount, hlocate, reload_apply]
    cases publishedAt c.location w with
    | error e =>
      rw [show (Except.error e : Except KeyError KeySet).toOption.toList = [] from rfl,
        List.append_nil]
      exact ⟨⟨hleft.known, hleft.wellFormed⟩, nofun⟩
    | ok keys =>
      let counted : CachedKeySet := { c with known := c.known.erase id, loads := c.loads + 1 }
      have hknown : counted.known = { c with known := c.known.erase id }.known := rfl
      have hkept : (counted.keep w.instant keys).GoesBackTo (sets ++ [keys]) :=
        hleft.keep hknown w.instant
      refine ⟨hkept, ?_⟩
      intro key hkey
      dsimp only at hkey
      cases hlast : lastOf keys id with
      | none =>
        rw [hlast] at hkey
        exact nomatch hkey
      | some listed =>
        rw [hlast] at hkey
        cases hkey
        exact ⟨id, hid, isLatest_append_of_listed hlast sets⟩

/-- The document that is loaded for what is not known is kept whole. -/
theorem kept_of_unknown {header : KeyHeader} {id : String} {w : Surroundings} {keys : KeySet}
    (hid : header.requireKeyId = .ok id) (hpeek : c.known.peek? id = none)
    (hkeys : publishedAt c.location w = .ok keys) (s : ProcessState) :
    (c.locate header w s).1.2 = { c with loads := c.loads + 1 }.keep w.instant keys := by
  rw [locate_of_unknown hid hpeek, reload_apply, hkeys]

/-- What is known after a step goes back to what was loaded until then. -/
theorem GoesBackTo.perform (h : c.GoesBackTo sets) (w : Surroundings) (s : ProcessState)
    (step : Step) : (c.perform step w s).1.GoesBackTo (sets ++ c.loaded w s step) := by
  cases step with
  | lookUp header => exact (h.lookUp header w s).1
  | clear => exact goesBackTo_of_empty rfl

/-- In the course of any look-ups and invalidations, whatever is published meanwhile, a cache that
started empty has no more entries than it has room for, each under an identifier of its own. A key
that it gives out then was published under the identifier that was asked for, and is the last one
listed in the latest loaded document with a key under that identifier. -/
theorem locate_goes_back (location : KeySetLocation) (lifetime : Duration)
    (moments : List (Surroundings × Step)) (s : ProcessState) :
    let start : CachedKeySet := { location, lifetime }
    let c := (Run.course perform start moments s).1
    c.known.entries.length ≤ 25 ∧ c.known.keys.Nodup ∧
      ∀ header w s' key, (c.locate header w s').1.1 = .ok key →
        ∃ id before keys after, header.requireKeyId = .ok id ∧
          start.loadings moments s ++ c.loaded w s' (.lookUp header) =
            before ++ keys :: after ∧
          lastOf keys id = some key ∧ (id, key) ∈ keys ∧
          ∀ later ∈ after, lastOf later id = none := by
  intro start c
  have hstart : start.GoesBackTo [] := goesBackTo_of_empty rfl
  have hc : c.GoesBackTo (start.loadings moments s) :=
    Run.course_notes_keeps (P := fun sets c => GoesBackTo c sets)
      (fun _ _ h => GoesBackTo.perform h) moments hstart s
  refine ⟨hc.wellFormed.bounded, hc.wellFormed.distinct, ?_⟩
  intro header w s' key hkey
  obtain ⟨id, hid, before, keys, after, hsplit, hlast, hafter⟩ := (hc.lookUp header w s').2 key hkey
  exact ⟨id, before, keys, after, hid, hsplit, hlast, mem_of_lastOf hlast, hafter⟩

/-- A document that publishes a key under another identifier than the one before. -/
def rotatedText : String := "\x7b\"keys\":[\x7b\"kty\":\"oct\",\"kid\":\"c\",\"k\":\"NA\"\x7d]\x7d"

def rotated : Surroundings :=
  { doubled with
    instant := 1
    files := { entries := [(["keys.json"], .file (Text.Utf8.encode rotatedText))] } }

theorem publishedAt_rotated :
    publishedAt (.file "keys.json") rotated = .ok [("c", .secret [52])] := by
  have hdocument : (KeySetLocation.file "keys.json").documentAt rotated = .ok rotatedText :=
    KeySetLocation.documentAt_of_find (find_keysFile _) (by decide)
  have hkeys : ofDocument (KeySetLocation.file "keys.json").text rotatedText =
      .ok [("c", .secret [52])] := by
    decide +kernel
  rw [publishedAt_of_documentAt hdocument, hkeys]

/-- After a rotation a key is still given out of which the document loaded last says nothing; it is
the one that the document before that lists last. -/
theorem locate_goes_back_rotated :
    let start : CachedKeySet := { location := .file "keys.json" }
    let moments :=
      [(doubled, Step.lookUp ⟨some "a", .hs256⟩), (rotated, Step.lookUp ⟨some "c", .hs256⟩)]
    let c := (Run.course perform start moments {}).1
    (c.locate ⟨some " a ", .hs256⟩ rotated {}).1.1 = .ok (.secret [51]) ∧
      ∃ id before keys after, KeyHeader.requireKeyId ⟨some " a ", .hs256⟩ = .ok id ∧
        start.loadings moments {} ++ c.loaded rotated {} (.lookUp ⟨some " a ", .hs256⟩) =
          before ++ keys :: after ∧
        lastOf keys id = some (.secret [51]) ∧ (id, .secret [51]) ∈ keys ∧
        ∀ later ∈ after, lastOf later id = none := by
  intro start moments c
  have ha : KeyHeader.requireKeyId ⟨some "a", .hs256⟩ = .ok "a" := by decide
  have hother : KeyHeader.requireKeyId ⟨some "c", .hs256⟩ = .ok "c" := by decide
  let filled : CachedKeySet := { start with loads := 1 }.keep 0 doubledKeys
  have hfilled (s : ProcessState) : (start.perform (.lookUp ⟨some "a", .hs256⟩) doubled s).1 =
      filled :=
    kept_of_unknown ha rfl publishedAt_doubled s
  let both : CachedKeySet := { filled with loads := 2 }.keep 1 [("c", .secret [52])]
  have hboth (s : ProcessState) : (filled.perform (.lookUp ⟨some "c", .hs256⟩) rotated s).1 =
      both :=
    kept_of_unknown hother (by decide) publishedAt_rotated s
  have hc : c = both := by
    have hcourse : c = (Run.course perform filled [(rotated, .lookUp ⟨some "c", .hs256⟩)]
        (start.perform (.lookUp ⟨some "a", .hs256⟩) doubled {}).2).1 := by
      rw [← hfilled {}]
      rfl
    rw [hcourse]
    exact hboth _
  have hkey : (c.locate ⟨some " a ", .hs256⟩ rotated {}).1.1 = .ok (.secret [51]) := by
    rw [hc]
    decide
  have hback := locate_goes_back start.location start.lifetime moments {}
  exact ⟨hkey, hback.2.2 ⟨some " a ", .hs256⟩ rotated {} (.secret [51]) hkey⟩

end BearerAuth.CachedKeySet

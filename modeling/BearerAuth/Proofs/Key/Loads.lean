import BearerAuth.Proofs.Key.Retention
import BearerAuth.Proofs.Key.Unnamed

namespace BearerAuth.CachedKeySet

open KeySet

/-- The identifiers that are looked up in turn. A header that names no key looks nothing up. -/
def lookedUp (moments : List (Surroundings × KeyHeader)) : List String :=
  moments.filterMap fun moment => moment.2.requireKeyId.toOption

theorem lookedUp_cons_of_unnamed {header : KeyHeader} {e : KeyError}
    (hid : header.requireKeyId = .error e) (w : Surroundings)
    (moments : List (Surroundings × KeyHeader)) :
    lookedUp ((w, header) :: moments) = lookedUp moments := by
  apply List.filterMap_cons_none
  rw [hid]
  rfl

theorem lookedUp_cons_of_named {header : KeyHeader} {id : String}
    (hid : header.requireKeyId = .ok id) (w : Surroundings)
    (moments : List (Surroundings × KeyHeader)) :
    lookedUp ((w, header) :: moments) = id :: lookedUp moments := by
  apply List.filterMap_cons_some
  rw [hid]
  rfl

/-- How often a document is loaded, from an empty start, for identifiers that are looked up in turn:
for each one that is not published, and for the first one if it is. -/
def loadsFor (published ids : List String) : Nat :=
  ids.countP (· ∉ published) + if ids.head?.any (· ∈ published) then 1 else 0

theorem loadsFor_singleton (published : List String) (id : String) :
    loadsFor published [id] = 1 := by
  unfold loadsFor
  by_cases hlisted : id ∈ published
  · simp [hlisted]
  · simp [hlisted]

/-- Which identifier came first does not change any more. -/
theorem loadsFor_concat {published ids : List String} (h : ids ≠ []) (id : String) :
    loadsFor published (ids ++ [id]) =
      loadsFor published ids + if id ∈ published then 0 else 1 := by
  have hhead : (ids ++ [id]).head? = ids.head? := List.head?_append_of_ne_nil ids h
  have hlast : [id].countP (· ∉ published) = if id ∈ published then 0 else 1 := by
    rw [List.countP_singleton]
    simp
  unfold loadsFor
  rw [hhead, List.countP_append, hlast]
  omega

section Room

variable {keys : KeySet} {id : String}

theorem exists_lastOf (h : id ∈ keys.map Prod.fst) : ∃ key, lastOf keys id = some key := by
  rw [← Option.ne_none_iff_exists']
  intro hnone
  obtain ⟨entry, hentry, rfl⟩ := List.mem_map.mp h
  have hother := List.lookup_eq_none_iff.mp hnone entry (List.mem_reverse.mpr hentry)
  simp at hother

/-- A document that a cache has room for as a whole pushes none of its keys out. -/
theorem card_listedAfter_lt (h : id ∈ keys.map Prod.fst) {n : Nat}
    (hroom : (keys.map Prod.fst).toFinset.card ≤ n) :
    (listedAfter keys id).toFinset.card < n := by
  have hothers : (listedAfter keys id).toFinset ⊆ (keys.map Prod.fst).toFinset.erase id :=
    RecencyMap.toFinset_usedAfter_subset (keys.map Prod.fst) id
  calc (listedAfter keys id).toFinset.card ≤ ((keys.map Prod.fst).toFinset.erase id).card :=
        Finset.card_le_card hothers
    _ < (keys.map Prod.fst).toFinset.card :=
        Finset.card_erase_lt_of_mem (List.mem_toFinset.mpr h)
    _ ≤ n := hroom

end Room

/-- A moment at which the document of a cache is what it was, and nothing that was used at one of
some instants, the present one among them, is forgotten yet. -/
structure Quiet (start : CachedKeySet) (keys : KeySet) (instants : List Duration)
    (w : Surroundings) : Prop where
  published : publishedAt start.location w = .ok keys
  instant : w.instant ∈ instants
  lasts : ∀ used ∈ instants, w.instant - used < start.lifetime

/-- What has become of an empty cache after some identifiers were looked up at some instants. As
soon as there was one, everything that is published is known. -/
structure Served (c start : CachedKeySet) (keys : KeySet) (instants : List Duration)
    (ids : List String) : Prop where
  location : c.location = start.location
  lifetime : c.lifetime = start.lifetime
  wellFormed : c.known.WellFormed
  current : ∀ id key used, c.known.peek? id = some (key, used) →
    lastOf keys id = some key ∧ used ∈ instants
  cold : ids = [] → c.known = {}
  complete : ids ≠ [] → ∀ id ∈ keys.map Prod.fst, id ∈ c.known.keys
  loads : c.loads = start.loads + loadsFor (keys.map Prod.fst) ids

section Served

variable {c start : CachedKeySet} {keys : KeySet} {instants : List Duration} {ids : List String}
  {id : String}

theorem served_of_cold (h : c.known = {}) : c.Served c keys instants [] where
  location := rfl
  lifetime := rfl
  wellFormed := by
    rw [h]
    exact RecencyMap.wellFormed_empty
  current := by
    intro id key used hpeek
    rw [h] at hpeek
    exact nomatch hpeek
  cold := fun _ => h
  complete := fun hne => absurd rfl hne
  loads := rfl

theorem Served.ids_ne_nil {key : KeyMaterial} {used : Duration}
    (h : c.Served start keys instants ids) (hpeek : c.known.peek? id = some (key, used)) :
    ids ≠ [] := by
  intro hnone
  rw [h.cold hnone] at hpeek
  exact nomatch hpeek

/-- What is not known is not published, unless nothing was looked up yet. -/
theorem Served.not_published (h : c.Served start keys instants ids) (hne : ids ≠ [])
    (hpeek : c.known.peek? id = none) : id ∉ keys.map Prod.fst := by
  intro hlisted
  obtain ⟨found, hknown⟩ := (RecencyMap.mem_keys_iff _ _).mp (h.complete hne id hlisted)
  exact nomatch hpeek.symm.trans hknown

/-- A key that is known is used. -/
theorem Served.put (h : c.Served start keys instants ids) {key : KeyMaterial}
    {used instant : Duration} (hpeek : c.known.peek? id = some (key, used))
    (hinstant : instant ∈ instants) :
    { c with known := c.known.put id (key, instant) }.Served start keys instants
      (ids ++ [id]) where
  location := h.location
  lifetime := h.lifetime
  wellFormed := h.wellFormed.put id (key, instant)
  current := by
    intro other key' used' hother
    rcases RecencyMap.peek?_of_put c.known hother with ⟨rfl, ⟨⟩⟩ | ⟨-, hbefore⟩
    · exact ⟨(h.current other key used hpeek).1, hinstant⟩
    · exact h.current other key' used' hbefore
  cold := fun hnone => absurd hnone (List.append_ne_nil_of_right_ne_nil _ (List.cons_ne_nil _ _))
  complete := by
    -- the key that is used takes the place of no other
    intro _ other hlisted
    have hknown : id ∈ c.known.keys := (RecencyMap.mem_keys_iff _ _).mpr ⟨_, hpeek⟩
    apply (RecencyMap.mem_keys_put_of_mem h.wellFormed hknown _ other).mpr
    exact h.complete (h.ids_ne_nil hpeek) other hlisted
  loads := by
    have hlisted : id ∈ keys.map Prod.fst :=
      List.mem_map_of_mem (mem_of_lastOf (h.current id key used hpeek).1)
    have hloads : c.loads = _ := h.loads
    rw [loadsFor_concat (h.ids_ne_nil hpeek), if_pos hlisted, Nat.add_zero]
    exact hloads

/-- What is not known is loaded, with everything else that is published. -/
theorem Served.keep (h : c.Served start keys instants ids)
    (hroom : (keys.map Prod.fst).toFinset.card ≤ 25) (hpeek : c.known.peek? id = none)
    {instant : Duration} (hinstant : instant ∈ instants) :
    ({ c with loads := c.loads + 1 }.keep instant keys).Served start keys instants
      (ids ++ [id]) where
  location := h.location
  lifetime := h.lifetime
  wellFormed := h.wellFormed.putAll _
  current := by
    intro other key used hother
    rcases RecencyMap.peek?_of_putAll c.known hother with hloaded | ⟨-, hbefore⟩
    · rw [← List.map_reverse, lookup_map_instant] at hloaded
      obtain ⟨_, hlast, ⟨⟩⟩ := Option.map_eq_some_iff.mp hloaded
      exact ⟨hlast, hinstant⟩
    · exact h.current other key used hbefore
  cold := fun hnone => absurd hnone (List.append_ne_nil_of_right_ne_nil _ (List.cons_ne_nil _ _))
  complete := by
    -- there is room for the whole document, so each of its keys is still there at the end
    intro _ other hlisted
    obtain ⟨key, hlast⟩ := exists_lastOf hlisted
    have hkept := peek?_keep hlast { c with loads := c.loads + 1 } instant
    rw [if_pos (card_listedAfter_lt hlisted hroom)] at hkept
    exact (RecencyMap.mem_keys_iff _ _).mpr ⟨_, hkept⟩
  loads := by
    have hloads : c.loads = _ := h.loads
    change c.loads + 1 = _
    -- the first identifier counts in any case, a later one because it cannot be published
    by_cases hne : ids = []
    · subst hne
      rw [hloads, List.nil_append, loadsFor_singleton]
      rfl
    · rw [loadsFor_concat hne, if_neg (h.not_published hne hpeek), hloads, Nat.add_assoc]

variable {w : Surroundings} {header : KeyHeader}

/-- A look-up of what is known changes nothing but the order of what is known. -/
theorem Served.locate_of_known (h : c.Served start keys instants ids)
    (hquiet : Quiet start keys instants w) (hid : header.requireKeyId = .ok id)
    {key : KeyMaterial} {used : Duration} (hpeek : c.known.peek? id = some (key, used))
    (s : ProcessState) :
    c.locate header w s = ((.ok key, { c with known := c.known.put id (key, w.instant) }), s) := by
  have hfresh : w.instant - used < c.lifetime := by
    rw [h.lifetime]
    exact hquiet.lasts used (h.current id key used hpeek).2
  exact locate_of_fresh hid hpeek hfresh s

theorem Served.published (h : c.Served start keys instants ids)
    (hquiet : Quiet start keys instants w) : publishedAt c.location w = .ok keys := by
  rw [h.location]
  exact hquiet.published

/-- A look-up that names a key adds its identifier to those that were looked up. -/
theorem Served.locate (h : c.Served start keys instants ids)
    (hroom : (keys.map Prod.fst).toFinset.card ≤ 25) (hquiet : Quiet start keys instants w)
    (hid : header.requireKeyId = .ok id) (s : ProcessState) :
    (c.locate header w s).1.2.Served start keys instants (ids ++ [id]) := by
  cases hpeek : c.known.peek? id with
  | some entry =>
    rw [h.locate_of_known hquiet hid hpeek]
    exact h.put hpeek hquiet.instant
  | none =>
    rw [kept_of_unknown hid hpeek (h.published hquiet)]
    exact h.keep hroom hpeek hquiet.instant

/-- In the course of any look-ups, the identifiers that they name are added in turn. -/
theorem Served.dialogue (h : c.Served start keys instants ids)
    (hroom : (keys.map Prod.fst).toFinset.card ≤ 25)
    {moments : List (Surroundings × KeyHeader)}
    (hquiet : ∀ moment ∈ moments, Quiet start keys instants moment.1) (s : ProcessState) :
    (Run.dialogue CachedKeySet.locate c moments s).1.2.Served start keys instants
      (ids ++ lookedUp moments) := by
  -- the induction is on the look-ups; the cache and what was looked up before change on the way
  induction moments generalizing c ids s with
  | nil =>
    rw [lookedUp, List.filterMap_nil, List.append_nil]
    exact h
  | cons moment moments ih =>
    obtain ⟨w, header⟩ := moment
    obtain ⟨hfirst, hlater⟩ := List.forall_mem_cons.mp hquiet
    rw [Run.dialogue]
    cases hid : header.requireKeyId with
    | error e =>
      rw [lookedUp_cons_of_unnamed hid, locate_of_unnamed c hid]
      exact ih h hlater s
    | ok id =>
      have hnext := h.locate hroom hfirst hid s
      rw [lookedUp_cons_of_named hid, List.append_cons]
      exact ih hnext hlater (c.locate header w s).2

/-- A published identifier finds the key that is listed last, without a load if anything was looked
up before. -/
theorem Served.locate_of_published (h : c.Served start keys instants ids)
    (hquiet : Quiet start keys instants w) (hid : header.requireKeyId = .ok id)
    {key : KeyMaterial} (hlast : lastOf keys id = some key) (s : ProcessState) :
    (c.locate header w s).1.1 = .ok key ∧
      (ids ≠ [] → (c.locate header w s).1.2.loads = c.loads ∧ (c.locate header w s).2 = s) := by
  cases hpeek : c.known.peek? id with
  | some entry =>
    have hlisted : lastOf keys id = some entry.1 := (h.current id entry.1 entry.2 hpeek).1
    obtain rfl := Option.some.inj (hlast.symm.trans hlisted)
    rw [h.locate_of_known hquiet hid hpeek]
    exact ⟨rfl, fun _ => ⟨rfl, rfl⟩⟩
  | none =>
    have hfound := located_of_unknown hid hpeek (h.published hquiet) hlast s
    refine ⟨congrArg Prod.fst hfound, fun hne => ?_⟩
    have hlisted : id ∈ keys.map Prod.fst := List.mem_map_of_mem (mem_of_lastOf hlast)
    exact absurd hlisted (h.not_published hne hpeek)

/-- An identifier that is not published is never known, and it is looked for in the document in
vain. -/
theorem Served.locate_of_unpublished (h : c.Served start keys instants ids)
    (hquiet : Quiet start keys instants w) (hid : header.requireKeyId = .ok id)
    (hlisted : id ∉ keys.map Prod.fst) (s : ProcessState) :
    (c.locate header w s).1.1 = .error (.keyNotFound id start.location.text) ∧
      (c.locate header w s).1.2.loads = c.loads + 1 := by
  have hlast : lastOf keys id = none := by
    apply Option.eq_none_iff_forall_ne_some.mpr
    intro key hlast
    exact hlisted (List.mem_map_of_mem (mem_of_lastOf hlast))
  have hpeek : c.known.peek? id = none := by
    apply Option.eq_none_iff_forall_ne_some.mpr
    intro entry hpeek
    exact nomatch hlast.symm.trans (h.current id entry.1 entry.2 hpeek).1
  rw [locate_of_unknown hid hpeek]
  refine ⟨?_, loads_reload c id w s⟩
  rw [reload_apply, h.published hquiet]
  dsimp only
  rw [hlast, h.location]

end Served

/-- An empty cache in front of a document that stays the same and has no more identifiers than the
cache has room for loads it, in the course of any look-ups within the lifetime, once for each
look-up of an identifier that is not published, and once more if the first look-up is of one that
is. A header that names no key is refused, and nothing happens. An identifier that is not published
is not found. One that is published is found, and once the document was loaded, without another
load. -/
theorem loads_dialogue {c : CachedKeySet} {keys : KeySet}
    {moments : List (Surroundings × KeyHeader)} (hcold : c.known = {})
    (hroom : (keys.map Prod.fst).toFinset.card ≤ 25)
    (hpublished : ∀ moment ∈ moments, publishedAt c.location moment.1 = .ok keys)
    (hlasts : ∀ earlier ∈ moments, ∀ later ∈ moments,
      later.1.instant - earlier.1.instant < c.lifetime) (s : ProcessState) :
    (Run.dialogue locate c moments s).1.2.loads =
        c.loads + ((lookedUp moments).countP (· ∉ keys.map Prod.fst) +
          if (lookedUp moments).head?.any (· ∈ keys.map Prod.fst) then 1 else 0) ∧
      ∀ before w header after, moments = before ++ (w, header) :: after →
        let c' := (Run.dialogue locate c before s).1.2
        let s' := (Run.dialogue locate c before s).2
        let found := c'.locate header w s'
        ((∀ id, header.keyId = some id → Text.isBlank id = true) →
            found = ((.error .missingKeyId, c'), s')) ∧
          ∀ id, header.requireKeyId = .ok id →
            (id ∉ keys.map Prod.fst → found.1.2.loads = c'.loads + 1 ∧
              found.1.1 = .error (.keyNotFound id c.location.text)) ∧
            (id ∈ keys.map Prod.fst → (∃ key, lastOf keys id = some key ∧ found.1.1 = .ok key) ∧
              (c.loads < c'.loads → found.1.2.loads = c'.loads ∧ found.2 = s')) := by
  let instants := moments.map fun moment => moment.1.instant
  have hquiet : ∀ moment ∈ moments, Quiet c keys instants moment.1 := by
    intro moment hmem
    refine ⟨hpublished moment hmem, List.mem_map_of_mem hmem, ?_⟩
    intro used hused
    obtain ⟨earlier, hearlier, rfl⟩ := List.mem_map.mp hused
    exact hlasts earlier hearlier moment hmem
  have hstart : c.Served c keys instants [] := served_of_cold hcold
  constructor
  · have hend := hstart.dialogue hroom hquiet s
    exact hend.loads
  · intro before w header after hsplit c' s' found
    have hbefore : ∀ moment ∈ before, Quiet c keys instants moment.1 := by
      intro moment hmem
      apply hquiet
      rw [hsplit]
      exact List.mem_append_left _ hmem
    have hnow : Quiet c keys instants w := by
      apply hquiet (w, header)
      rw [hsplit]
      exact List.mem_append_right _ List.mem_cons_self
    have hserved : c'.Served c keys instants (lookedUp before) := hstart.dialogue hroom hbefore s
    constructor
    · intro hblank
      rcases header.requireKeyId_cases with ⟨id, hnamed, hid⟩ | hmissing
      · exact nomatch hid.symm.trans (hblank id hnamed)
      · exact locate_of_unnamed c' hmissing w s'
    · intro id hid
      constructor
      · intro hlisted
        exact (hserved.locate_of_unpublished hnow hid hlisted s').symm
      · intro hlisted
        obtain ⟨key, hlast⟩ := exists_lastOf hlisted
        obtain ⟨hfound, hagain⟩ := hserved.locate_of_published hnow hid hlast s'
        refine ⟨⟨key, hlast, hfound⟩, fun hloaded => hagain ?_⟩
        -- the document was loaded, so something was looked up
        intro hnone
        have hloads : c'.loads = c.loads + loadsFor _ _ := hserved.loads
        rw [hnone] at hloads
        exact absurd hloads (Nat.ne_of_gt hloaded)

/-- Of a document with keys for a and b, a look-up of b loads it, then one of c does in vain, and
then a is found without another load. -/
theorem loads_dialogue_doubled :
    let c : CachedKeySet := { location := .file "keys.json" }
    let before : List (Surroundings × KeyHeader) :=
      [⟨some " ", .hs256⟩, ⟨some "b", .hs256⟩, ⟨some "c", .hs256⟩].map fun header =>
        (doubled, header)
    let run := Run.dialogue locate c before {}
    let found := run.1.2.locate ⟨some "a", .hs256⟩ doubled run.2
    run.1.2.loads = 2 ∧ found.1.1 = .ok (.secret [51]) ∧ found.1.2.loads = 2 ∧ found.2 = run.2 := by
  intro c before run found
  let moments := before ++ [(doubled, ⟨some "a", .hs256⟩)]
  have hsame : ∀ moment ∈ moments, moment.1 = doubled := by
    simp [moments, before]
  have hpublished : ∀ moment ∈ moments, publishedAt c.location moment.1 = .ok doubledKeys := by
    intro moment hmem
    rw [hsame moment hmem]
    exact publishedAt_doubled
  have hlasts : ∀ earlier ∈ moments, ∀ later ∈ moments,
      later.1.instant - earlier.1.instant < c.lifetime := by
    intro earlier hearlier later hlater
    rw [hsame earlier hearlier, hsame later hlater]
    decide
  have hroom : (doubledKeys.map Prod.fst).toFinset.card ≤ 25 := by decide
  have hbefore : ∀ moment ∈ before, moment ∈ moments := fun _ hmem => List.mem_append_left _ hmem
  -- the look-ups before the last one are a run of their own
  have hpublished' : ∀ moment ∈ before, publishedAt c.location moment.1 = .ok doubledKeys :=
    fun moment hmem => hpublished moment (hbefore moment hmem)
  have hlasts' : ∀ earlier ∈ before, ∀ later ∈ before,
      later.1.instant - earlier.1.instant < c.lifetime :=
    fun earlier hearlier later hlater =>
      hlasts earlier (hbefore earlier hearlier) later (hbefore later hlater)
  obtain ⟨hcount, -⟩ := loads_dialogue rfl hroom hpublished' hlasts' {}
  have hloads : run.1.2.loads = 2 := hcount.trans (by decide)
  obtain ⟨-, hmoments⟩ := loads_dialogue rfl hroom hpublished hlasts {}
  obtain ⟨-, hnamed⟩ := hmoments before doubled ⟨some "a", .hs256⟩ [] rfl
  have ha : KeyHeader.requireKeyId ⟨some "a", .hs256⟩ = .ok "a" := by decide
  obtain ⟨⟨key, hlast, hfound⟩, hagain⟩ := (hnamed "a" ha).2 (by decide)
  obtain ⟨hsteady, hstill⟩ := hagain (hloads ▸ by decide)
  obtain rfl : .secret [51] = key := Option.some.inj (hlast ▸ by decide)
  exact ⟨hloads, hfound, hsteady.trans hloads, hstill⟩

end BearerAuth.CachedKeySet

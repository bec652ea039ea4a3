import BearerAuth.Proofs.Outcome
import BearerAuth.Proofs.Key.Retention
import BearerAuth.Proofs.Key.Unnamed

namespace BearerAuth

open Outcome

theorem Run.fetch_of_fetchKeys (url : String) (w : Surroundings) (s : ProcessState) :
    FailsIn (fun e => ∃ reason, e = .fetch url reason) (fetchKeys url w s).1 :=
  .mapError (fun e => ⟨e.message, rfl⟩) _

/-- A document that cannot be had is missed under the name of its location. -/
theorem KeySetLocation.fetch_of_documentAt (location : KeySetLocation) {w : Surroundings}
    {e : KeyError} (h : location.documentAt w = .error e) :
    ∃ reason, e = .fetch location.text reason := by
  have hfails : FailsIn (fun e => ∃ reason, e = .fetch location.text reason)
      (location.documentAt w) := by
    cases location with
    | network url => exact Run.fetch_of_fetchKeys url.text w {}
    | file path => exact .mapError (fun e => ⟨e.message, rfl⟩) _
  exact hfails e h

namespace KeySet

/-- Why the keys at a location cannot be had at some moment: the document cannot be had, is no JSON,
or holds no list of keys. -/
inductive Withheld (location : KeySetLocation) (w : Surroundings) : KeyError → Prop
  | unreached {e : KeyError} (h : location.documentAt w = .error e) : Withheld location w e
  | unreadable {document : String} {e : Json.ParseError}
      (hdocument : location.documentAt w = .ok document) (h : Json.read document = .error e) :
      Withheld location w (.invalidDocument location.text e.message)
  | keyless {document : String} {v : Json} (hdocument : location.documentAt w = .ok document)
      (hread : Json.read document = .ok v) (h : (v.member? "keys").bind Json.array? = none) :
      Withheld location w (.invalidDocument location.text "missing 'keys' array")

variable {location : KeySetLocation} {w : Surroundings} {e : KeyError}

/-- There is no other reason for which the keys at a location cannot be had. -/
theorem publishedAt_eq_error_iff : publishedAt location w = .error e ↔ Withheld location w e := by
  constructor
  · intro h
    cases hdocument : location.documentAt w with
    | error reason =>
      rw [publishedAt, hdocument] at h
      obtain rfl : reason = e := Except.error.inj h
      exact .unreached hdocument
    | ok document =>
      rw [publishedAt_of_documentAt hdocument] at h
      cases hread : Json.read document with
      | error reason =>
        rw [ofDocument_of_unread _ hread] at h
        obtain rfl := Except.error.inj h
        exact .unreadable hdocument hread
      | ok v =>
        cases hkeys : (v.member? "keys").bind Json.array? with
        | some entries =>
          rw [ofDocument_of_entries _ hread hkeys] at h
          cases h
        | none =>
          rw [ofDocument_of_keyless _ hread hkeys] at h
          obtain rfl := Except.error.inj h
          exact .keyless hdocument hread hkeys
  · intro h
    cases h with
    | unreached h =>
      rw [publishedAt, h]
      rfl
    | unreadable hdocument h =>
      rw [publishedAt_of_documentAt hdocument]
      exact ofDocument_of_unread _ h
    | keyless hdocument hread h =>
      rw [publishedAt_of_documentAt hdocument]
      exact ofDocument_of_keyless _ hread h

/-- The want of a document is never taken for a header that names no key. -/
theorem Withheld.ne_missingKeyId (h : Withheld location w e) : e ≠ .missingKeyId := by
  cases h with
  | unreadable => exact nofun
  | keyless => exact nofun
  | unreached h =>
    obtain ⟨reason, rfl⟩ := location.fetch_of_documentAt h
    exact nofun

end KeySet

namespace CachedKeySet

open KeySet

/-- A lifetime so long that nothing used at one of some instants is forgotten at another. -/
def Outlasts (lifetime : Duration) (instants : List Duration) : Prop :=
  ∀ earlier ∈ instants, ∀ later ∈ instants, later - earlier < lifetime

/-- What has become of a cache by things that were done to it at some instants. -/
structure DatesFrom (c start : CachedKeySet) (instants : List Duration) : Prop where
  location : c.location = start.location
  lifetime : c.lifetime = start.lifetime
  wellFormed : c.known.WellFormed
  used : ∀ id key used, c.known.peek? id = some (key, used) → used ∈ instants

section DatesFrom

variable {c start : CachedKeySet} {instants : List Duration} {id : String}

theorem datesFrom_of_cold (h : c.known = {}) : c.DatesFrom c instants where
  location := rfl
  lifetime := rfl
  wellFormed := by
    rw [h]
    exact RecencyMap.wellFormed_empty
  used := by
    intro id key used hpeek
    rw [h] at hpeek
    exact nomatch hpeek

theorem DatesFrom.erase (h : c.DatesFrom start instants) (id : String) :
    { c with known := c.known.erase id }.DatesFrom start instants where
  location := h.location
  lifetime := h.lifetime
  wellFormed := h.wellFormed.erase id
  used := by
    intro other key used hpeek
    change (c.known.erase id).peek? other = some (key, used) at hpeek
    rw [RecencyMap.peek?_erase] at hpeek
    split at hpeek
    · exact nomatch hpeek
    · exact h.used other key used hpeek

theorem DatesFrom.put (h : c.DatesFrom start instants) {instant : Duration}
    (hinstant : instant ∈ instants) (id : String) (key : KeyMaterial) :
    { c with known := c.known.put id (key, instant) }.DatesFrom start instants where
  location := h.location
  lifetime := h.lifetime
  wellFormed := h.wellFormed.put id (key, instant)
  used := by
    intro other key' used hpeek
    rcases RecencyMap.peek?_of_put c.known hpeek with ⟨-, ⟨⟩⟩ | ⟨-, hbefore⟩
    · exact hinstant
    · exact h.used other key' used hbefore

theorem DatesFrom.keep (h : c.DatesFrom start instants) {instant : Duration}
    (hinstant : instant ∈ instants) (keys : KeySet) :
    (c.keep instant keys).DatesFrom start instants where
  location := h.location
  lifetime := h.lifetime
  wellFormed := h.wellFormed.putAll _
  used := by
    intro other key used hpeek
    rcases RecencyMap.peek?_of_putAll c.known hpeek with hloaded | ⟨-, hbefore⟩
    · rw [← List.map_reverse, lookup_map_instant] at hloaded
      obtain ⟨_, -, ⟨⟩⟩ := Option.map_eq_some_iff.mp hloaded
      exact hinstant
    · exact h.used other key used hbefore

/-- The number of loads tells nothing of what is known. -/
theorem DatesFrom.counted (h : c.DatesFrom start instants) (n : Nat) :
    { c with loads := n }.DatesFrom start instants :=
  ⟨h.location, h.lifetime, h.wellFormed, h.used⟩

variable {w : Surroundings}

theorem DatesFrom.locate (h : c.DatesFrom start instants) (hinstant : w.instant ∈ instants)
    (header : KeyHeader) (s : ProcessState) :
    (c.locate header w s).1.2.DatesFrom start instants := by
  rcases c.locate_cases header w s with ⟨e, -, hlocate⟩ | ⟨id, key, used, -, -, hlocate⟩ |
    ⟨id, -, hlocate⟩
  · rw [hlocate]
    exact h
  · rw [hlocate]
    exact h.put hinstant id key
  · have hleft := (h.erase id).counted (c.loads + 1)
    rw [hlocate, reload_apply]
    dsimp only
    cases publishedAt c.location w with
    | error e => exact hleft
    | ok keys => exact hleft.keep hinstant keys

theorem DatesFrom.perform (h : c.DatesFrom start instants) (hinstant : w.instant ∈ instants)
    (step : Step) (s : ProcessState) : (c.perform step w s).1.DatesFrom start instants := by
  cases step with
  | lookUp header => exact h.locate hinstant header s
  | clear =>
    have hcold : ({} : RecencyMap 25 (KeyMaterial × Duration)).WellFormed :=
      RecencyMap.wellFormed_empty
    exact ⟨h.location, h.lifetime, hcold, nofun⟩

/-- A key that is known is still fresh as long as the lifetime outlasts the instants. -/
theorem DatesFrom.fresh (h : c.DatesFrom start instants)
    (hlasts : Outlasts start.lifetime instants) (hinstant : w.instant ∈ instants)
    {key : KeyMaterial} {used : Duration} (hpeek : c.known.peek? id = some (key, used)) :
    w.instant - used < c.lifetime := by
  rw [h.lifetime]
  exact hlasts used (h.used id key used hpeek) w.instant hinstant

/-- What a look-up can come to while the document is withheld. -/
inductive Withstands (c : CachedKeySet) (header : KeyHeader) (w : Surroundings)
    (s : ProcessState) (e : KeyError) : Prop
  | unnamed (hid : header.requireKeyId = .error .missingKeyId)
      (h : c.locate header w s = ((.error .missingKeyId, c), s))
  | known {id : String} {key : KeyMaterial} {used : Duration} (hid : header.requireKeyId = .ok id)
      (hpeek : c.known.peek? id = some (key, used))
      (h : c.locate header w s =
        ((.ok key, { c with known := c.known.put id (key, w.instant) }), s))
  | unknown {id : String} (hid : header.requireKeyId = .ok id) (hpeek : c.known.peek? id = none)
      (h : (c.locate header w s).1 = (.error e, { c with loads := c.loads + 1 }))

theorem DatesFrom.withstands (h : c.DatesFrom start instants)
    (hlasts : Outlasts start.lifetime instants) (hinstant : w.instant ∈ instants) {e : KeyError}
    (hwithheld : Withheld start.location w e) (header : KeyHeader) (s : ProcessState) :
    c.Withstands header w s e := by
  cases hid : header.requireKeyId with
  | error reason =>
    obtain rfl := KeyHeader.eq_missingKeyId hid
    exact .unnamed hid (locate_of_unnamed c hid w s)
  | ok id =>
    cases hpeek : c.known.peek? id with
    | some entry =>
      have hfresh := h.fresh hlasts hinstant hpeek
      exact .known hid hpeek (locate_of_fresh hid hpeek hfresh s)
    | none =>
      have hpublished : publishedAt c.location w = .error e := by
        rw [h.location]
        exact publishedAt_eq_error_iff.mpr hwithheld
      refine .unknown hid hpeek ?_
      rw [locate_of_unknown hid hpeek, reload_apply, hpublished]

/-- A cache that still knows every key that another one knows. -/
def Retains (c before : CachedKeySet) : Prop :=
  ∀ id key used, before.known.peek? id = some (key, used) →
    ∃ used', c.known.peek? id = some (key, used')

theorem Retains.withstands {before : CachedKeySet} (h : c.Retains before)
    (hc : c.known.WellFormed) {header : KeyHeader} {s : ProcessState} {e : KeyError}
    (hstep : c.Withstands header w s e) : (c.locate header w s).1.2.Retains before := by
  cases hstep with
  | unnamed _ hlocate =>
    rw [hlocate]
    exact h
  | unknown _ _ hlocate =>
    rw [hlocate]
    exact h
  | @known id key used _ hpeek hlocate =>
    -- the key that is used was known, so it takes the place of no other
    have hknown : id ∈ c.known.keys := (RecencyMap.mem_keys_iff _ _).mpr ⟨_, hpeek⟩
    rw [hlocate]
    intro other key' used' hbefore
    obtain ⟨used'', hother⟩ := h other key' used' hbefore
    have hput := RecencyMap.peek?_put_of_mem hc hknown (key, w.instant) other
    by_cases hsame : other = id
    · subst hsame
      obtain ⟨rfl, -⟩ := Prod.mk.inj (Option.some.inj (hpeek.symm.trans hother))
      rw [if_pos rfl] at hput
      exact ⟨w.instant, hput⟩
    · rw [if_neg hsame] at hput
      exact ⟨used'', hput.trans hother⟩

end DatesFrom

/-- A look-up that fails because the document cannot be had leaves a cache whose lifetime outlasts
the course of things exactly as it was, order included, but for one more load. So as long as the
outage lasts, and whatever else is looked up meanwhile, each key that was known before is given out
without a load or a request. -/
theorem locate_of_withheld {start : CachedKeySet} (hcold : start.known = {})
    {moments : List (Surroundings × Step)} {w : Surroundings}
    {outage : List (Surroundings × KeyHeader)}
    (hlasts : Outlasts start.lifetime (moments.map (fun moment => moment.1.instant) ++
      w.instant :: outage.map fun moment => moment.1.instant))
    {e : KeyError} (hwithheld : Withheld start.location w e)
    (hdown : ∀ moment ∈ outage, ∃ reason, Withheld start.location moment.1 reason)
    (header : KeyHeader) (s s' : ProcessState) :
    let c := (Run.course perform start moments s).1
    let failed := c.locate header w s'
    failed.1.1 = .error e →
      failed.1.2 = { c with loads := c.loads + 1 } ∧
        ∀ before w' header' after, outage = before ++ (w', header') :: after →
          let during := Run.dialogue locate failed.1.2 before failed.2
          let again := during.1.2.locate header' w' during.2
          ∀ id key used, header'.requireKeyId = .ok id → c.known.peek? id = some (key, used) →
            again.1.1 = .ok key ∧ again.1.2.loads = during.1.2.loads ∧ again.2 = during.2 := by
  intro c failed hfailed
  let instants := moments.map (fun moment => moment.1.instant) ++
    w.instant :: outage.map fun moment => moment.1.instant
  have hw : w.instant ∈ instants := List.mem_append_right _ List.mem_cons_self
  have hlater : ∀ moment ∈ outage, moment.1.instant ∈ instants := by
    intro moment hmem
    apply List.mem_append_right
    apply List.mem_cons_of_mem
    exact List.mem_map_of_mem hmem
  have hc : c.DatesFrom start instants := by
    refine Run.course_keeps (P := fun c' : CachedKeySet => c'.DatesFrom start instants) ?_
      (datesFrom_of_cold hcold) s
    intro w' step hmem c' s'' hc'
    have hinstant : w'.instant ∈ instants :=
      List.mem_append_left _ (List.mem_map_of_mem hmem)
    exact hc'.perform hinstant step s''
  -- an error other than that of an unnamed key comes of a load alone
  have hleft : failed.1.2 = { c with loads := c.loads + 1 } := by
    cases hc.withstands hlasts hw hwithheld header s' with
    | unnamed _ hlocate =>
      have hmissing : e = .missingKeyId := by
        have hanswer : failed.1.1 = .error .missingKeyId := congrArg (fun x => x.1.1) hlocate
        exact Except.error.inj (hfailed.symm.trans hanswer)
      exact absurd hmissing hwithheld.ne_missingKeyId
    | @known id key used _ _ hlocate =>
      have hanswer : failed.1.1 = .ok key := congrArg (fun x => x.1.1) hlocate
      exact nomatch hfailed.symm.trans hanswer
    | unknown _ _ hlocate => exact congrArg Prod.snd hlocate
  refine ⟨hleft, ?_⟩
  intro before w' header' after hsplit during again id key used hid hknown
  have hstart : failed.1.2.DatesFrom start instants ∧ failed.1.2.Retains c := by
    rw [hleft]
    exact ⟨hc.counted _, fun id key used hpeek => ⟨used, hpeek⟩⟩
  -- what was known stays known: uses renew it, and nothing new takes its place
  have hduring : during.1.2.DatesFrom start instants ∧ during.1.2.Retains c := by
    refine Run.dialogue_keeps
      (P := fun c' : CachedKeySet => c'.DatesFrom start instants ∧ c'.Retains c) ?_ hstart failed.2
    rintro w'' header'' hmem c' s'' ⟨hdates, hretains⟩
    have houtage : (w'', header'') ∈ outage := by
      rw [hsplit]
      exact List.mem_append_left _ hmem
    have hinstant : w''.instant ∈ instants := hlater _ houtage
    obtain ⟨reason, hreason⟩ := hdown _ houtage
    have hstep := hdates.withstands hlasts hinstant hreason header'' s''
    exact ⟨hdates.locate hinstant header'' s'', hretains.withstands hdates.wellFormed hstep⟩
  obtain ⟨hdates, hretains⟩ := hduring
  obtain ⟨used', hpeek⟩ := hretains id key used hknown
  have hinstant : w'.instant ∈ instants := by
    apply hlater (w', header')
    rw [hsplit]
    exact List.mem_append_right _ List.mem_cons_self
  have hfresh := hdates.fresh hlasts hinstant hpeek
  have hagain : again = _ := locate_of_fresh hid hpeek hfresh during.2
  rw [hagain]
  exact ⟨rfl, rfl, rfl⟩

/-- The file with the document was taken away. -/
def withdrawn : Surroundings := { doubled with files := { entries := [] } }

theorem withheld_withdrawn :
    Withheld (.file "keys.json") withdrawn
      (.fetch "file://keys.json" FileError.notFound.message) := by
  have hfind : withdrawn.files.find "keys.json" = .error .notFound := by
    unfold withdrawn
    cbv
  have hread : withdrawn.files.readText "keys.json" = .error .notFound := by
    unfold FileSystem.readText FileSystem.read
    rw [hfind]
    rfl
  apply Withheld.unreached
  change (withdrawn.files.readText "keys.json").mapError _ = _
  rw [hread]
  rfl

/-- After the file is taken away two other identifiers are looked up in vain, and still the key that
was loaded along with another one is given out. -/
theorem locate_of_withheld_withdrawn :
    let start : CachedKeySet := { location := .file "keys.json" }
    let moments := [(doubled, Step.lookUp ⟨some "b", .hs256⟩)]
    let c := (Run.course perform start moments {}).1
    let failed := c.locate ⟨some "c", .hs256⟩ withdrawn {}
    let during := Run.dialogue locate failed.1.2 [(withdrawn, ⟨some "d", .hs256⟩)] failed.2
    let again := during.1.2.locate ⟨some "a", .hs256⟩ withdrawn during.2
    failed.1.2 = { c with loads := c.loads + 1 } ∧ again.1.1 = .ok (.secret [51]) ∧
      again.1.2.loads = during.1.2.loads ∧ again.2 = during.2 := by
  intro start moments c failed during again
  let filled : CachedKeySet := { start with loads := 1 }.keep 0 doubledKeys
  have hb : KeyHeader.requireKeyId ⟨some "b", .hs256⟩ = .ok "b" := by decide
  have hc : c = filled := kept_of_unknown hb rfl publishedAt_doubled {}
  have hlocation : c.location = .file "keys.json" := by
    rw [hc]
    rfl
  have hother : KeyHeader.requireKeyId ⟨some "c", .hs256⟩ = .ok "c" := by decide
  have hunknown : c.known.peek? "c" = none := by
    rw [hc]
    decide
  have hfailed : failed.1.1 = .error (.fetch "file://keys.json" FileError.notFound.message) := by
    have hpublished := publishedAt_eq_error_iff.mpr withheld_withdrawn
    unfold failed
    rw [locate_of_unknown hother hunknown, reload_apply, hlocation, hpublished]
  let outage : List (Surroundings × KeyHeader) :=
    [⟨some "d", .hs256⟩, ⟨some "a", .hs256⟩].map fun header => (withdrawn, header)
  have hlasts : Outlasts start.lifetime (moments.map (fun moment => moment.1.instant) ++
      withdrawn.instant :: outage.map fun moment => moment.1.instant) := by
    -- nothing takes any time
    have hinstants : moments.map (fun moment => moment.1.instant) ++
        withdrawn.instant :: outage.map (fun moment => moment.1.instant) =
          List.replicate 4 0 := rfl
    rw [hinstants]
    intro earlier hearlier later hlater
    rw [List.eq_of_mem_replicate hearlier, List.eq_of_mem_replicate hlater]
    decide
  have hdown : ∀ moment ∈ outage, ∃ reason, Withheld start.location moment.1 reason := by
    intro moment hmem
    obtain ⟨header, -, rfl⟩ := List.mem_map.mp hmem
    exact ⟨_, withheld_withdrawn⟩
  obtain ⟨hleft, hstill⟩ :=
    locate_of_withheld rfl hlasts withheld_withdrawn hdown ⟨some "c", .hs256⟩ {} {} hfailed
  have ha : KeyHeader.requireKeyId ⟨some "a", .hs256⟩ = .ok "a" := by decide
  have hknown : c.known.peek? "a" = some (.secret [51], 0) := by
    rw [hc]
    decide
  have hsplit : outage =
      [(withdrawn, ⟨some "d", .hs256⟩)] ++ (withdrawn, ⟨some "a", .hs256⟩) :: [] := rfl
  have hagain := hstill _ withdrawn ⟨some "a", .hs256⟩ [] hsplit "a" _ _ ha hknown
  refine ⟨hleft, ?_⟩
  unfold again during failed c
  exact hagain

end CachedKeySet

end BearerAuth

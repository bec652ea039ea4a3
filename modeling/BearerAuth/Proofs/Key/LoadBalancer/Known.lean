import BearerAuth.Key.LoadBalancer.Resolver
import BearerAuth.Proofs.Engine.Reply
import BearerAuth.Proofs.Recency.Order
import BearerAuth.Proofs.Surroundings.Requests

namespace BearerAuth

theorem KeyHeader.ne_empty_of_requireKeyId {header : KeyHeader} {id : String}
    (h : header.requireKeyId = .ok id) : id ≠ "" := by
  unfold requireKeyId at h
  cases hid : header.keyId.bind Text.nonBlank? with
  | none =>
    rw [hid] at h
    exact nomatch h
  | some found =>
    rw [hid] at h
    obtain rfl := Except.ok.inj h
    obtain ⟨name, -, hname⟩ := Option.bind_eq_some_iff.mp hid
    unfold Text.nonBlank? at hname
    dsimp only at hname
    split at hname
    · exact nomatch hname
    · next hne =>
      obtain rfl := Option.some.inj hname
      rintro hempty
      rw [hempty] at hne
      exact hne rfl

namespace LoadBalancerKeys

/-- An identifier that may stand in an address. -/
def IsKeyId (id : String) : Prop :=
  id ≠ "" ∧ ∀ c ∈ id.toList, c.isAlphanum = true ∨ c = '-' ∨ c = '_'

/-- What is asked of the network for the key of an identifier. -/
def exchangesFor (region id : String) (w : Surroundings) (s : ProcessState) : List Exchange :=
  match s.keyAddresses.address region id with
  | .ok url => w.exchangesFor url
  | .error _ => []

/-- What is known after a look-up that comes to some answer. A key that is found is used last. -/
def keep (l : LoadBalancerKeys) (id : String) : Except KeyError KeyMaterial → LoadBalancerKeys
  | .ok key => { l with known := l.known.put id key }
  | .error _ => l

variable {l : LoadBalancerKeys} {header : KeyHeader} {region id : String} {key : KeyMaterial}
  {w : Surroundings} {s : ProcessState}

theorem isKeyId_iff (hne : id ≠ "") : IsKeyId id ↔ id.toList.all isKeyIdChar = true := by
  unfold IsKeyId isKeyIdChar
  simp only [List.all_eq_true, Bool.or_eq_true, beq_iff_eq, or_assoc]
  exact and_iff_right hne

/-- To fetch a key changes nothing but what was asked. -/
theorem snd_fetch (region id : String) (w : Surroundings) (s : ProcessState) :
    (fetch region id w s).2 = { s with
      exchanges := s.exchanges ++ exchangesFor region id w s } := by
  unfold fetch exchangesFor
  simp only [Run.bind_apply, Run.keyAddress]
  cases s.keyAddresses.address region id with
  | error e => simp only [Run.pure_apply, List.append_nil]
  | ok url =>
    simp only [Run.bind_apply, Run.fetchKeys_apply]
    cases w.documentAt url with
    | error e => rfl
    | ok pem =>
      dsimp only
      cases PemKey.material .ec (Text.Utf8.encode pem) <;> rfl

/-- All that a look-up can come to. It is refused, or the key is known, or it is fetched. -/
theorem locate_cases (hknown : l.known.WellFormed) (header : KeyHeader) (w : Surroundings)
    (s : ProcessState) :
    (∃ e, (∀ id, header.requireKeyId = .ok id → ¬ IsKeyId id) ∧
      l.locate header w s = ((.error e, l), s)) ∨
    ∃ id, header.requireKeyId = .ok id ∧ IsKeyId id ∧
      ((∃ key, l.known.peek? id = some key ∧
          l.locate header w s = ((.ok key, l.keep id (.ok key)), s)) ∨
        (l.known.peek? id = none ∧ l.locate header w s =
          (((fetch l.region id w s).1, l.keep id (fetch l.region id w s).1),
            { s with exchanges := s.exchanges ++ exchangesFor l.region id w s }))) := by
  unfold locate
  cases hid : header.requireKeyId with
  | error e => exact Or.inl ⟨e, nofun, rfl⟩
  | ok id =>
    have hvalid := isKeyId_iff (KeyHeader.ne_empty_of_requireKeyId hid)
    dsimp only
    cases hchars : id.toList.all isKeyIdChar with
    | false =>
      refine Or.inl ⟨_, ?_, rfl⟩
      intro id' hid'
      obtain rfl := Except.ok.inj hid'
      rw [hvalid, hchars]
      exact Bool.false_ne_true
    | true =>
      refine Or.inr ⟨id, rfl, hvalid.mpr hchars, ?_⟩
      cases hpeek : l.known.peek? id with
      | some key =>
        rw [RecencyMap.get_eq_put hknown hpeek]
        exact Or.inl ⟨key, rfl, rfl⟩
      | none =>
        refine Or.inr ⟨rfl, ?_⟩
        rw [RecencyMap.get_of_peek?_eq_none _ hpeek, ← snd_fetch]
        simp only [Bool.not_true, Bool.false_eq_true, if_false, Run.bind_apply]
        cases (fetch l.region id w s).1 <;> rfl

theorem region_keep (l : LoadBalancerKeys) (id : String) (answer : Except KeyError KeyMaterial) :
    (l.keep id answer).region = l.region := by
  cases answer <;> rfl

theorem wellFormed_keep (h : l.known.WellFormed) (id : String)
    (answer : Except KeyError KeyMaterial) : (l.keep id answer).known.WellFormed := by
  cases answer with
  | error e => exact h
  | ok key => exact h.put id key

/-- What a look-up keeps to: the map of the known keys stays one, and the region and the formats of
addresses stay the same. -/
theorem locate_keeps (h : l.known.WellFormed) (header : KeyHeader) (w : Surroundings)
    (s : ProcessState) :
    (l.locate header w s).1.2.known.WellFormed ∧
      (l.locate header w s).1.2.region = l.region ∧
      (l.locate header w s).2.keyAddresses = s.keyAddresses := by
  rcases locate_cases h header w s with ⟨e, -, hlocate⟩ |
    ⟨id, -, -, ⟨key, -, hlocate⟩ | ⟨-, hlocate⟩⟩
  · rw [hlocate]
    exact ⟨h, rfl, rfl⟩
  · rw [hlocate]
    exact ⟨wellFormed_keep h id _, region_keep l id _, rfl⟩
  · rw [hlocate]
    exact ⟨wellFormed_keep h id _, region_keep l id _, rfl⟩

/-- A look-up that fails leaves everything known as it is. -/
theorem locate_of_failed (h : l.known.WellFormed) {e : KeyError}
    (hfailed : (l.locate header w s).1.1 = .error e) : (l.locate header w s).1.2 = l := by
  rcases locate_cases h header w s with ⟨e, -, hlocate⟩ |
    ⟨id, -, -, ⟨key, -, hlocate⟩ | ⟨-, hlocate⟩⟩
  · rw [hlocate]
  · rw [hlocate] at hfailed
    exact nomatch hfailed
  · rw [hlocate] at hfailed ⊢
    dsimp only at hfailed ⊢
    rw [hfailed]
    rfl

theorem locate_of_known (h : l.known.WellFormed) (hid : header.requireKeyId = .ok id)
    (hvalid : IsKeyId id) (hpeek : l.known.peek? id = some key) (w : Surroundings)
    (s : ProcessState) :
    l.locate header w s = ((.ok key, l.keep id (.ok key)), s) := by
  rcases locate_cases h header w s with ⟨e, hrefused, -⟩ |
    ⟨id', hid', -, ⟨key', hpeek', hlocate⟩ | ⟨hnone, -⟩⟩
  · exact absurd hvalid (hrefused id hid)
  · obtain rfl := Except.ok.inj (hid.symm.trans hid')
    obtain rfl := Option.some.inj (hpeek.symm.trans hpeek')
    exact hlocate
  · obtain rfl := Except.ok.inj (hid.symm.trans hid')
    exact nomatch hpeek.symm.trans hnone

theorem locate_of_unknown (h : l.known.WellFormed) (hid : header.requireKeyId = .ok id)
    (hvalid : IsKeyId id) (hpeek : l.known.peek? id = none) (w : Surroundings)
    (s : ProcessState) :
    l.locate header w s = (((fetch l.region id w s).1, l.keep id (fetch l.region id w s).1),
      { s with exchanges := s.exchanges ++ exchangesFor l.region id w s }) := by
  rcases locate_cases h header w s with ⟨e, hrefused, -⟩ |
    ⟨id', hid', -, ⟨key, hknown, -⟩ | ⟨-, hlocate⟩⟩
  · exact absurd hvalid (hrefused id hid)
  · obtain rfl := Except.ok.inj (hid.symm.trans hid')
    exact nomatch hpeek.symm.trans hknown
  · obtain rfl := Except.ok.inj (hid.symm.trans hid')
    exact hlocate

theorem isKeyId_of_located (h : l.known.WellFormed) (hid : header.requireKeyId = .ok id)
    (hfound : (l.locate header w s).1.1 = .ok key) : IsKeyId id := by
  rcases locate_cases h header w s with ⟨e, -, hlocate⟩ | ⟨id', hid', hvalid, -⟩
  · rw [hlocate] at hfound
    exact nomatch hfound
  · obtain rfl := Except.ok.inj (hid.symm.trans hid')
    exact hvalid

/-! ### Any number of look-ups -/

/-- What a look-up finds: the key that is its answer, under the identifier that it is for. -/
def located (header : KeyHeader) (answer : Except KeyError KeyMaterial) :
    List (String × KeyMaterial) :=
  match header.requireKeyId, answer with
  | .ok id, .ok key => [(id, key)]
  | _, _ => []

/-- What look-ups in turn find. -/
def locatedBy (moments : List (Surroundings × KeyHeader))
    (answers : List (Except KeyError KeyMaterial)) : List (String × KeyMaterial) :=
  (List.zipWith (fun moment answer => located moment.2 answer) moments answers).flatten

/-- What is found is written to the map of the known keys. -/
theorem known_locate (h : l.known.WellFormed) (header : KeyHeader) (w : Surroundings)
    (s : ProcessState) :
    (l.locate header w s).1.2.known =
      l.known.putAll (located header (l.locate header w s).1.1) := by
  unfold located
  rcases locate_cases h header w s with ⟨e, -, hlocate⟩ |
    ⟨id, hid, -, ⟨key, -, hlocate⟩ | ⟨-, hlocate⟩⟩
  · rw [hlocate]
    cases header.requireKeyId <;> rfl
  · rw [hlocate, hid]
    rfl
  · rw [hlocate, hid]
    cases (fetch l.region id w s).1 <;> rfl

/-- A resolver that has found a key and since then, as long as too few others were found to push it
out, that key alone under its identifier. -/
structure Remembers (id : String) (key : KeyMaterial) (found : List (String × KeyMaterial))
    (l : LoadBalancerKeys) : Prop where
  wellFormed : l.known.WellFormed
  known : ∃ m : RecencyMap 25 KeyMaterial, l.known = m.putAll found
  start : (id, key) ∈ found
  same : ((found.map Prod.fst).toFinset.erase id).card < 25 →
    ∀ entry ∈ found, entry.1 = id → entry.2 = key

namespace Remembers

variable {found : List (String × KeyMaterial)}

theorem peek? (h : Remembers id key found l)
    (hfew : ((found.map Prod.fst).toFinset.erase id).card < 25) :
    l.known.peek? id = some key := by
  obtain ⟨m, hm⟩ := h.known
  rw [hm]
  exact m.peek?_putAll_of_few h.start (h.same hfew) hfew

theorem locate (h : Remembers id key found l) (header : KeyHeader) (w : Surroundings)
    (s : ProcessState) :
    Remembers id key (found ++ located header (l.locate header w s).1.1)
      (l.locate header w s).1.2 := by
  obtain ⟨m, hm⟩ := h.known
  refine ⟨(locate_keeps h.wellFormed header w s).1, ⟨m, ?_⟩, List.mem_append_left _ h.start, ?_⟩
  · rw [known_locate h.wellFormed, hm]
    exact List.foldl_append.symm
  · intro hfew entry hentry hname
    -- before the look-up there were no more others than there are after it
    have hfewer : ((found.map Prod.fst).toFinset.erase id).card < 25 := by
      refine Nat.lt_of_le_of_lt (Finset.card_le_card (Finset.erase_subset_erase _ ?_)) hfew
      rw [List.map_append, List.toFinset_append]
      exact Finset.subset_union_left
    rcases List.mem_append.mp hentry with hentry | hentry
    · exact h.same hfewer entry hentry hname
    · -- so the key was still known, and was not fetched anew
      unfold located at hentry
      split at hentry
      · next name answer hid hanswer =>
        rw [List.mem_singleton] at hentry
        subst hentry
        obtain rfl : name = id := hname
        have hvalid := isKeyId_of_located h.wellFormed hid hanswer
        rw [locate_of_known h.wellFormed hid hvalid (h.peek? hfewer)] at hanswer
        exact (Except.ok.inj hanswer).symm
      · exact absurd hentry List.not_mem_nil

/-- What is remembered is so after any number of look-ups. -/
theorem dialogue (h : Remembers id key found l) (moments : List (Surroundings × KeyHeader))
    (s : ProcessState) :
    Remembers id key
      (found ++ locatedBy moments (Run.dialogue LoadBalancerKeys.locate l moments s).1.1)
      (Run.dialogue LoadBalancerKeys.locate l moments s).1.2 := by
  induction moments generalizing l found s with
  | nil =>
    have hnothing : found ++ locatedBy [] [] = found := List.append_nil _
    rw [Run.dialogue, hnothing]
    exact h
  | cons moment moments ih =>
    obtain ⟨w, header⟩ := moment
    have hrest := ih (h.locate header w s) (l.locate header w s).2
    rw [List.append_assoc] at hrest
    exact hrest

end Remembers

/-- A look-up that finds a key remembers it. -/
theorem remembers_of_located (h : l.known.WellFormed) (hid : header.requireKeyId = .ok id)
    (hfound : (l.locate header w s).1.1 = .ok key) :
    Remembers id key [(id, key)] (l.locate header w s).1.2 where
  wellFormed := (locate_keeps h header w s).1
  known := by
    refine ⟨l.known, ?_⟩
    rw [known_locate h, hfound]
    unfold located
    rw [hid]
  start := List.mem_singleton_self _
  same := by
    intro _ entry hentry _
    rw [List.mem_singleton.mp hentry]

/-- The requests for the key of a header at some moment, under some formats of addresses. -/
def IsFetchFor (addresses : KeyAddressFormats) (region : String) (w : Surroundings)
    (header : KeyHeader) (asked : List Exchange) : Prop :=
  ∃ id url, header.requireKeyId = .ok id ∧ IsKeyId id ∧ addresses.address region id = .ok url ∧
    asked = w.exchangesFor url ∧ IsFetchOf url asked

theorem fetches_locate (h : l.known.WellFormed) (header : KeyHeader) (w : Surroundings)
    (s : ProcessState) :
    ∃ fetches : List (List Exchange),
      (l.locate header w s).2.exchanges = s.exchanges ++ fetches.flatten ∧
      ∀ asked ∈ fetches, IsFetchFor s.keyAddresses l.region w header asked := by
  rcases locate_cases h header w s with ⟨e, -, hlocate⟩ |
    ⟨id, hid, hvalid, ⟨key, -, hlocate⟩ | ⟨-, hlocate⟩⟩
  · rw [hlocate]
    exact ⟨[], (List.append_nil _).symm, nofun⟩
  · rw [hlocate]
    exact ⟨[], (List.append_nil _).symm, nofun⟩
  · rw [hlocate]
    unfold exchangesFor
    cases haddress : s.keyAddresses.address l.region id with
    | error e => exact ⟨[], rfl, nofun⟩
    | ok url =>
      rcases BearerAuth.exchangesFor_cases w url with hnone | hfetch
      · dsimp only
        rw [hnone]
        exact ⟨[], rfl, nofun⟩
      · refine ⟨[w.exchangesFor url], by rw [List.flatten_singleton], ?_⟩
        intro asked hasked
        rw [List.mem_singleton.mp hasked]
        exact ⟨id, url, hid, hvalid, haddress, rfl, hfetch⟩

/-- Any number of look-ups ask for nothing but the keys of identifiers that may stand in an address.
-/
theorem fetches_dialogue (h : l.known.WellFormed) (moments : List (Surroundings × KeyHeader))
    (s : ProcessState) :
    ∃ fetches : List (List Exchange),
      (Run.dialogue locate l moments s).2.exchanges = s.exchanges ++ fetches.flatten ∧
      ∀ asked ∈ fetches, ∃ w header, (w, header) ∈ moments ∧
        IsFetchFor s.keyAddresses l.region w header asked := by
  let Q : LoadBalancerKeys → ProcessState → Prop := fun l' s' =>
    l'.known.WellFormed ∧ l'.region = l.region ∧ s'.keyAddresses = s.keyAddresses
  have hadds (l' : LoadBalancerKeys) (header : KeyHeader) (w : Surroundings) (s' : ProcessState)
      (hl' : Q l' s') : ∃ fetches : List (List Exchange),
        (l'.locate header w s').2.exchanges = s'.exchanges ++ fetches.flatten ∧
        ∀ asked ∈ fetches, IsFetchFor s.keyAddresses l.region w header asked := by
    obtain ⟨hknown, hregion, haddresses⟩ := hl'
    rw [← hregion, ← haddresses]
    exact fetches_locate hknown header w s'
  have hkeeps (l' : LoadBalancerKeys) (header : KeyHeader) (w : Surroundings) (s' : ProcessState)
      (hl' : Q l' s') : Q (l'.locate header w s').1.2 (l'.locate header w s').2 := by
    obtain ⟨hknown, hregion, haddresses⟩ := hl'
    obtain ⟨hknown', hregion', haddresses'⟩ := locate_keeps hknown header w s'
    exact ⟨hknown', hregion'.trans hregion, haddresses'.trans haddresses⟩
  exact Run.dialogue_appends_each hadds hkeeps moments ⟨h, rfl, rfl⟩

/-- After any look-ups of a region's keys: nothing was asked for but the keys of identifiers that
may stand in an address, and what the replies redirected to, ten times at most for one key; and no
more than twenty-five keys are known. A look-up under such an identifier fetches the key if it is
not known. A look-up under any other identifier is refused without a request, and one that fails
changes nothing that is known. A key that is found is found again, and the process does nothing for
it, until as many other identifiers were found as there is room for. -/
theorem locate_guarded (region : String) (moments : List (Surroundings × KeyHeader))
    (s : ProcessState) :
    let run := Run.dialogue locate { region } moments s
    let l := run.1.2
    (∃ fetches : List (List Exchange), run.2.exchanges = s.exchanges ++ fetches.flatten ∧
      ∀ asked ∈ fetches, ∃ w header, (w, header) ∈ moments ∧
        IsFetchFor s.keyAddresses region w header asked) ∧
    l.known.keys.length ≤ 25 ∧
    ∀ w header,
      let next := l.locate header w run.2
      (∀ id, header.requireKeyId = .ok id → IsKeyId id → l.known.peek? id = none →
        next.1.1 = (fetch region id w run.2).1 ∧
        next.2.exchanges = run.2.exchanges ++ exchangesFor region id w run.2) ∧
      ((∀ id, header.requireKeyId = .ok id → ¬ IsKeyId id) →
        ∃ e, next = ((.error e, l), run.2)) ∧
      (∀ e, next.1.1 = .error e → next.1.2 = l) ∧
      ∀ id key, header.requireKeyId = .ok id → next.1.1 = .ok key →
        ∀ between w' header', header'.requireKeyId = .ok id →
          let later := Run.dialogue locate next.1.2 between next.2
          let again := later.1.2.locate header' w' later.2
          (((locatedBy between later.1.1).map Prod.fst).toFinset.erase id).card < 25 →
          again.1.1 = .ok key ∧ again.2 = later.2 := by
  intro run l
  have hempty : ({ region } : LoadBalancerKeys).known.WellFormed := RecencyMap.wellFormed_empty
  obtain ⟨hknown, hregion⟩ : l.known.WellFormed ∧ l.region = region := by
    refine Run.dialogue_keeps (P := fun l : LoadBalancerKeys =>
      l.known.WellFormed ∧ l.region = region) ?_ ⟨hempty, rfl⟩ s
    rintro w header - l s ⟨hknown, hregion⟩
    obtain ⟨hknown', hregion', -⟩ := locate_keeps hknown header w s
    exact ⟨hknown', hregion'.trans hregion⟩
  have hbounded : l.known.keys.length ≤ 25 := by
    rw [RecencyMap.keys, List.length_map]
    exact hknown.bounded
  refine ⟨fetches_dialogue hempty moments s, hbounded, ?_⟩
  intro w header next
  refine ⟨?_, ?_, fun e => locate_of_failed hknown, ?_⟩
  · intro id hid hvalid hunknown
    have hnext := locate_of_unknown hknown hid hvalid hunknown w run.2
    rw [hregion] at hnext
    exact ⟨congrArg (fun x => x.1.1) hnext, congrArg (fun x => x.2.exchanges) hnext⟩
  · intro hrefused
    rcases locate_cases hknown header w run.2 with ⟨e, -, hlocate⟩ | ⟨id, hid, hvalid, -⟩
    · exact ⟨e, hlocate⟩
    · exact absurd hvalid (hrefused id hid)
  · intro id key hid hfound between w' header' hid' later again hfew
    have hremembers := (remembers_of_located hknown hid hfound).dialogue between next.2
    have hpeek : later.1.2.known.peek? id = some key := by
      apply hremembers.peek?
      rw [List.map_append, List.toFinset_append, Finset.erase_union_distrib]
      have hself : (([(id, key)].map Prod.fst).toFinset).erase id = ∅ := by simp
      rw [hself, Finset.empty_union]
      exact hfew
    have hvalid : IsKeyId id := isKeyId_of_located hknown hid hfound
    have hagain : again = _ := locate_of_known hremembers.wellFormed hid' hvalid hpeek w' later.2
    rw [hagain]
    exact ⟨rfl, rfl⟩

/-- A public key of the elliptic curve family, as short as one can be. -/
def shortKey : String :=
  "-----BEGIN PUBLIC KEY-----\nMA0GByqGSM49AgEDAgAE\n-----END PUBLIC KEY-----\n"

/-- A moment at which the network has the key everywhere. -/
def serving : Surroundings := { midnight with network := fun _ => .answer 200 shortKey }

/-- A key that was found is found again when the network is gone, after a name with slashes in it
was refused. -/
theorem locate_guarded_ireland :
    let l : LoadBalancerKeys := { region := "eu-west-1" }
    let first := l.locate ⟨some "k-1", .es256⟩ serving {}
    let later := Run.dialogue locate first.1.2 [(midnight, ⟨some "../k", .es256⟩)] first.2
    let again := later.1.2.locate ⟨some "k-1 ", .es256⟩ midnight later.2
    again.1.1 = .ok (.ecPoint [4]) ∧ again.2 = later.2 := by
  dsimp only
  -- only this look-up is evaluated, the others are about it as it stands
  have hfound : (locate { region := "eu-west-1" } ⟨some "k-1", .es256⟩ serving {}).1.1 =
      .ok (.ecPoint [4]) := by decide +kernel
  have hrefused (l : LoadBalancerKeys) (s : ProcessState) :
      located ⟨some "../k", .es256⟩ (l.locate ⟨some "../k", .es256⟩ midnight s).1.1 = [] := rfl
  have hnothing (l : LoadBalancerKeys) (s : ProcessState) :
      locatedBy [(midnight, ⟨some "../k", .es256⟩)]
        (Run.dialogue locate l [(midnight, ⟨some "../k", .es256⟩)] s).1.1 = [] :=
    congrArg (· ++ []) (hrefused l s)
  obtain ⟨-, -, hnext⟩ := locate_guarded "eu-west-1" [] {}
  simp only [Run.dialogue] at hnext
  obtain ⟨-, -, -, hstays⟩ := hnext serving ⟨some "k-1", .es256⟩
  apply hstays "k-1" (.ecPoint [4]) (by decide) hfound [(midnight, ⟨some "../k", .es256⟩)] midnight
    ⟨some "k-1 ", .es256⟩ (by decide)
  rw [hnothing]
  decide

/-- The address to which a load balancer of keys may redirect. -/
def elsewhere : Url where
  scheme := "http".toList
  username := []
  password := none
  host := some (.domain "a.example".toList)
  port := none
  path := .segments [[]]
  query := none
  fragment := none

/-- A moment at which the network has nothing, but redirects from the address of one key. -/
def redirecting : Surroundings :=
  let published := "https://public-keys.auth.elb.eu-west-1.amazonaws.com/k-1"
  { midnight with network := fun address =>
      if address = published then .redirect elsewhere else .unreachable }

/-- A name with spaces around it is not refused, and what is asked for it need not be the address
of a key. -/
theorem locate_redirected :
    ¬ IsKeyId " k-1 " ∧
      (locate { region := "eu-west-1" } ⟨some " k-1 ", .es256⟩ redirecting {}).2.exchanges.map
        (·.url) =
          ["https://public-keys.auth.elb.eu-west-1.amazonaws.com/k-1", "http://a.example/"] ∧
      ∀ id, KeyAddressFormats.initial.address "eu-west-1" id ≠ .ok "http://a.example/" := by
  refine ⟨?_, ?_, ?_⟩
  · intro hvalid
    have hspace := hvalid.2 ' ' (by decide)
    exact absurd hspace (by decide)
  · decide +kernel
  · intro id haddress
    have hfilled : KeyAddressFormats.initial.address "eu-west-1" id = .ok (String.ofList
        ("https://public-keys.auth.elb.eu-west-1.amazonaws.com/".toList ++ (id.toList ++ []))) :=
      by rfl
    rw [hfilled] at haddress
    -- the two differ in the scheme
    have hfifth := congrArg (fun address => address.toList[4]?) (Except.ok.inj haddress)
    rw [String.toList_ofList, List.getElem?_append_left (by decide)] at hfifth
    exact absurd hfifth (by decide)

end LoadBalancerKeys

end BearerAuth

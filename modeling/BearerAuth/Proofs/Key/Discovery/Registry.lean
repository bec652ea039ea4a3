import BearerAuth.Proofs.Key.Discovery.Attempt
import BearerAuth.Proofs.Recency.Order
import BearerAuth.Proofs.Surroundings.Course

/-! What is known of providers after any parts of a process have registered, read and forgotten
configurations. To use an address is to register something under it or to read it with success. What
was registered last under an address is known until five others were used after it. -/

namespace BearerAuth.ProviderRegistry

open RecencyMap

/-- What the parts of a process do with the registry that they share. -/
inductive Access where
  | register (address : String) (configuration : ProviderConfiguration)
  | read (address : String)
  | reset
deriving DecidableEq, Repr

namespace Access

def perform : Access → Run Unit
  | register address configuration => Run.registerProvider address configuration
  | read address => do let _ ← Run.knownProvider address
  | reset => Run.forgetProviders

/-- The address that is used, if one is. -/
def used? (w : Surroundings) (s : ProcessState) : Access → Option String
  | register address _ => some address
  | read address => (Run.knownProvider address w s).1.map fun _ => address
  | reset => none

/-- What is registered under an address, with the instant. -/
def registered? (address : String) :
    Surroundings × Access → Option (ProviderConfiguration × Duration)
  | (w, register name configuration) =>
    if address = name then some (configuration, w.instant) else none
  | (_, read _) => none
  | (_, reset) => none

end Access

/-- The process after some accesses, each in surroundings of its own. -/
def accessed (done : List (Surroundings × Access)) (s : ProcessState) : ProcessState :=
  (Run.course (fun _ access => access.perform) () done s).2

/-- The addresses that are used in the course of some accesses, in turn. -/
def uses (done : List (Surroundings × Access)) (s : ProcessState) : List String :=
  Run.notes (fun _ access => access.perform) (fun _ w s access => (access.used? w s).toList) ()
    done s

def sinceReset (done : List (Surroundings × Access)) : List (Surroundings × Access) :=
  done.rtakeWhile (·.2 != .reset)

/-- What is registered last under an address, with the instant. -/
def latest? (done : List (Surroundings × Access)) (address : String) :
    Option (ProviderConfiguration × Duration) :=
  done.reverse.findSome? (Access.registered? address)

/-- What is registered last under an address since the last reset is not too old yet. -/
def IsFresh (done : List (Surroundings × Access)) (instant : Duration) (address : String) : Prop :=
  ∀ known ∈ latest? (sinceReset done) address, instant - known.2 < lifetime

/-- Nothing is too old when its address is read. -/
def WithinLifetime (done : List (Surroundings × Access)) : Prop :=
  ∀ before w address after, done = before ++ (w, .read address) :: after →
    IsFresh before w.instant address

/-- The accesses of a provider that asks for its key set: it reads what is known, and if that is
nothing, registers what it is told. -/
def ofAttempt (address : String) (w : Surroundings) (s : ProcessState) :
    List (Surroundings × Access) :=
  (w, .read address) ::
    match (Run.knownProvider address w s).1, DiscoveredKeys.described w address with
    | none, .ok configuration => [(w, .register address configuration)]
    | _, _ => []

/-- An attempt leaves the registry as these accesses do. So whatever providers share it, their
attempts come to a list of accesses, in the order in which they are made. -/
theorem providers_discover (d : DiscoveredKeys) (w : Surroundings) (s : ProcessState) :
    (d.discover w s).2.providers = (accessed (ofAttempt d.address w s) s).providers := by
  have hfound : (Run.knownProvider d.address w s).1 =
      (s.providers.find w.instant d.address).1 := rfl
  rw [(d.discover_apply w s).2.2]
  unfold DiscoveredKeys.registered ofAttempt
  rw [hfound]
  dsimp only
  cases (s.providers.find w.instant d.address).1 with
  | some configuration => rfl
  | none => cases DiscoveredKeys.described w d.address <;> rfl

section Latest

variable (done : List (Surroundings × Access)) (w : Surroundings)

theorem latest?_concat (moment : Surroundings × Access) (address : String) :
    latest? (done ++ [moment]) address =
      (Access.registered? address moment).or (latest? done address) := by
  unfold latest?
  rw [List.reverse_append, List.reverse_singleton, List.singleton_append, List.findSome?_cons]
  cases Access.registered? address moment <;> rfl

theorem latest?_sinceReset_concat {access : Access} (h : access ≠ .reset) (address : String) :
    latest? (sinceReset (done ++ [(w, access)])) address =
      (Access.registered? address (w, access)).or (latest? (sinceReset done) address) := by
  have hcounts : ((w, access).2 != .reset) = true := bne_iff_ne.mpr h
  unfold sinceReset
  rw [List.rtakeWhile_concat_pos _ done _ hcounts, latest?_concat]

theorem latest?_of_register (name : String) (configuration : ProviderConfiguration)
    (address : String) :
    latest? (sinceReset (done ++ [(w, .register name configuration)])) address =
      if address = name then some (configuration, w.instant)
      else latest? (sinceReset done) address := by
  rw [latest?_sinceReset_concat done w (by simp), Access.registered?]
  split <;> rfl

theorem latest?_of_read (name address : String) :
    latest? (sinceReset (done ++ [(w, .read name)])) address =
      latest? (sinceReset done) address := by
  rw [latest?_sinceReset_concat done w (by simp), Access.registered?, Option.none_or]

theorem latest?_of_reset (address : String) :
    latest? (sinceReset (done ++ [(w, .reset)])) address = none := by
  unfold sinceReset
  rw [List.rtakeWhile_concat_neg _ done _ (by simp)]
  rfl

variable {done}

/-- What is registered last is registered at some moment. -/
theorem exists_mem_of_latest? {address : String} {known : ProviderConfiguration × Duration}
    (h : latest? (sinceReset done) address = some known) :
    ∃ w, (w, .register address known.1) ∈ done ∧ w.instant = known.2 := by
  obtain ⟨⟨w, access⟩, hmem, hregistered⟩ := List.exists_of_findSome?_eq_some h
  have hdone : (w, access) ∈ done := (List.rtakeWhile_suffix ..).mem (List.mem_reverse.mp hmem)
  cases access with
  | register name configuration =>
    rw [Access.registered?] at hregistered
    split at hregistered
    · next hname =>
      cases hregistered
      exact ⟨w, hname ▸ hdone, rfl⟩
    · exact nomatch hregistered
  | read name => exact nomatch hregistered
  | reset => exact nomatch hregistered

theorem WithinLifetime.of_append {more : List (Surroundings × Access)}
    (h : WithinLifetime (done ++ more)) : WithinLifetime done := by
  rintro before w address after rfl
  apply h before w address (after ++ more)
  rw [List.append_assoc, List.cons_append]

/-- Accesses of which no two are further apart than the lifetime are within it. -/
theorem withinLifetime_of_close
    (h : ∀ moment ∈ done, ∀ later ∈ done, later.1.instant - moment.1.instant < lifetime) :
    WithinLifetime done := by
  rintro before w address after rfl known hknown
  obtain ⟨w', hmem, hinstant⟩ := exists_mem_of_latest? hknown
  rw [← hinstant]
  exact h _ (List.mem_append_left _ hmem) _ (List.mem_append_right _ List.mem_cons_self)

end Latest

section Find

variable {r : ProviderRegistry} {address : String}

theorem find_of_unknown (h : r.peek? address = none) (instant : Duration) :
    r.find instant address = (none, r) := by
  unfold find
  rw [get_of_peek?_eq_none r h]

/-- A configuration that is found is used thereby, and stays as old as it is. -/
theorem find_of_known (hr : r.WellFormed) {known : ProviderConfiguration × Duration}
    (h : r.peek? address = some known) (instant : Duration) :
    r.find instant address =
      if instant - known.2 < lifetime then (some known.1, r.put address known)
      else (none, (r.put address known).erase address) := by
  unfold find
  rw [get_eq_put hr h]

theorem wellFormed_find (h : r.WellFormed) (instant : Duration) (address : String) :
    (r.find instant address).2.WellFormed := by
  cases hpeek : r.peek? address with
  | none =>
    rw [find_of_unknown hpeek]
    exact h
  | some known =>
    have hput : (r.put address known).WellFormed := h.put address known
    rw [find_of_known h hpeek]
    split
    · exact hput
    · exact hput.erase address

/-- Whatever is done with it, the registry has no more entries than there is room for, each under an
address of its own. -/
theorem wellFormed_accessed {s : ProcessState} (h : s.providers.WellFormed)
    (done : List (Surroundings × Access)) : (accessed done s).providers.WellFormed := by
  induction done generalizing s with
  | nil => exact h
  | cons moment done ih =>
    obtain ⟨w, access⟩ := moment
    have hfirst : (access.perform w s).2.providers.WellFormed := by
      cases access with
      | register address configuration => exact h.put address (configuration, w.instant)
      | read address => exact wellFormed_find h w.instant address
      | reset => exact wellFormed_empty
    exact ih hfirst

end Find

section Recalls

/-- What ties the registry to what was done with it and to the addresses that were used. Since the
last reset each use has written what was registered last under its address. -/
def Recalls (done : List (Surroundings × Access)) (used : List String) (r : ProviderRegistry) :
    Prop :=
  ∃ written, r = putAll {} written ∧ written.map Prod.fst <:+ used ∧
    ∀ address, written.reverse.lookup address = latest? (sinceReset done) address

variable {done : List (Surroundings × Access)} {used : List String} {r : ProviderRegistry}
  {address : String} {known : ProviderConfiguration × Duration} {w : Surroundings}

theorem recalls_nothing : Recalls [] [] {} := ⟨[], rfl, List.suffix_rfl, fun _ => rfl⟩

theorem Recalls.wellFormed (h : Recalls done used r) : r.WellFormed := by
  obtain ⟨written, rfl, -⟩ := h
  exact wellFormed_empty.putAll written

theorem Recalls.latest (h : Recalls done used r) (hpeek : r.peek? address = some known) :
    latest? (sinceReset done) address = some known := by
  obtain ⟨written, rfl, -, hwritten⟩ := h
  rw [← hwritten]
  exact (peek?_of_putAll {} hpeek).resolve_right fun ⟨_, hbefore⟩ => nomatch hbefore

/-- What was registered last since the last reset is known exactly as long as fewer others were used
after it than there is room for. -/
theorem Recalls.peek?_eq_some_iff (h : Recalls done used r) (address : String)
    (known : ProviderConfiguration × Duration) : r.peek? address = some known ↔
      latest? (sinceReset done) address = some known ∧
        (usedAfter used address).toFinset.card < 5 := by
  have hroom (hlatest : latest? (sinceReset done) address = some known) :
      address ∈ r.keys ↔ (usedAfter used address).toFinset.card < 5 := by
    obtain ⟨written, rfl, ⟨earlier, rfl⟩, hwritten⟩ := h
    rw [← hwritten] at hlatest
    have hmem : address ∈ written.map Prod.fst := by
      obtain ⟨after, before, hsplit, -⟩ := List.lookup_eq_some_iff.mp hlatest
      have hentry : (address, known) ∈ written.reverse := by
        rw [hsplit]
        exact List.mem_append_right _ List.mem_cons_self
      exact List.mem_map_of_mem (f := Prod.fst) (List.mem_reverse.mp hentry)
    -- what was used before the last reset stands before the last use
    rw [usedAfter_append_of_mem earlier hmem]
    exact mem_keys_putAll_iff {} hmem
  constructor
  · intro hpeek
    have hlatest := h.latest hpeek
    exact ⟨hlatest, (hroom hlatest).mp ((mem_keys_iff r address).mpr ⟨known, hpeek⟩)⟩
  · rintro ⟨hlatest, hfew⟩
    obtain ⟨found, hpeek⟩ := (mem_keys_iff r address).mp ((hroom hlatest).mpr hfew)
    rw [hpeek, ← h.latest hpeek, hlatest]

/-- A read either uses what it finds, or changes nothing. -/
theorem Recalls.find_cases_of_fresh (h : Recalls done used r)
    (hfresh : IsFresh done w.instant address) :
    (∃ known, r.peek? address = some known ∧
      r.find w.instant address = (some known.1, r.put address known)) ∨
    (r.peek? address = none ∧ r.find w.instant address = (none, r)) := by
  cases hpeek : r.peek? address with
  | none => exact Or.inr ⟨rfl, find_of_unknown hpeek w.instant⟩
  | some known =>
    refine Or.inl ⟨known, rfl, ?_⟩
    rw [find_of_known h.wellFormed hpeek, if_pos (hfresh known (h.latest hpeek))]

/-- A use of an address writes what was registered last under it. -/
theorem Recalls.put (h : Recalls done used r) {moment : Surroundings × Access}
    (hlatest : ∀ other, latest? (sinceReset (done ++ [moment])) other =
      if other = address then some known else latest? (sinceReset done) other) :
    Recalls (done ++ [moment]) (used ++ [address]) (r.put address known) := by
  obtain ⟨written, rfl, ⟨earlier, rfl⟩, hwritten⟩ := h
  refine ⟨written ++ [(address, known)], (putAll_concat _ written (address, known)).symm,
    ⟨earlier, ?_⟩, fun other => ?_⟩
  · rw [List.map_append, List.append_assoc]
    rfl
  · rw [hlatest, ← hwritten, List.reverse_append, List.reverse_singleton, List.singleton_append,
      List.lookup_cons]
    by_cases hother : other = address
    · rw [hother, beq_self_eq_true, if_pos rfl]
    · rw [beq_eq_false_iff_ne.mpr hother, if_neg hother]

theorem Recalls.read (h : Recalls done used r) (hfresh : IsFresh done w.instant address) :
    Recalls (done ++ [(w, .read address)])
      (used ++ ((r.find w.instant address).1.map fun _ => address).toList)
      (r.find w.instant address).2 := by
  rcases h.find_cases_of_fresh hfresh with ⟨known, hpeek, hfind⟩ | ⟨-, hfind⟩
  · rw [hfind]
    apply h.put
    intro other
    rw [latest?_of_read]
    split
    · next hother => rw [hother, h.latest hpeek]
    · rfl
  · obtain ⟨written, hr, hused, hwritten⟩ := h
    rw [hfind, Option.map_none, Option.toList_none, List.append_nil]
    refine ⟨written, hr, hused, fun other => ?_⟩
    rw [hwritten, latest?_of_read]

/-- One access of any kind, within the lifetime. -/
theorem Recalls.perform {s : ProcessState} (h : Recalls done used s.providers) {access : Access}
    (hfresh : ∀ address, access = .read address → IsFresh done w.instant address) :
    Recalls (done ++ [(w, access)]) (used ++ (access.used? w s).toList)
      (access.perform w s).2.providers := by
  cases access with
  | register address configuration => exact h.put (latest?_of_register done w address configuration)
  | read address => exact h.read (hfresh address rfl)
  | reset =>
    refine ⟨[], rfl, List.nil_suffix, fun other => ?_⟩
    rw [latest?_of_reset]
    rfl

/-- The invariant is kept by any accesses within the lifetime. -/
theorem Recalls.accessed {s : ProcessState} (h : Recalls done used s.providers)
    {more : List (Surroundings × Access)} (hlasts : WithinLifetime (done ++ more)) :
    Recalls (done ++ more) (used ++ uses more s) (accessed more s).providers := by
  -- what is done first moves over to what was done already, with the address that it uses
  induction more generalizing done used s with
  | nil =>
    rw [List.append_nil, show uses [] s = [] from rfl, List.append_nil]
    exact h
  | cons moment more ih =>
    obtain ⟨w, access⟩ := moment
    have hfirst : Recalls (done ++ [(w, access)]) (used ++ (access.used? w s).toList)
        (access.perform w s).2.providers := by
      apply h.perform
      rintro address rfl
      exact hlasts done w address more rfl
    rw [List.append_cons] at hlasts ⊢
    have hrest := ih hfirst hlasts
    rw [List.append_assoc used] at hrest
    exact hrest

end Recalls

/-- The registry starts empty and is used in whatever way. It never has more than five entries, each
under an address of its own. As long as nothing is too old when it is read, a read finds exactly
what was registered last under that very address, if this was done since the last reset and fewer
than five others were registered or read with success after it was the last time. A read that finds
nothing changes nothing. -/
theorem known_iff_recently_used (done : List (Surroundings × Access)) (s : ProcessState)
    (hempty : s.providers = {}) :
    let s' := accessed done s
    s'.providers.entries.length ≤ 5 ∧ s'.providers.keys.Nodup ∧
      ∀ (w : Surroundings) (address : String), WithinLifetime (done ++ [(w, .read address)]) →
        let found := Run.knownProvider address w s'
        (∀ configuration, found.1 = some configuration ↔
          (∃ instant, latest? (sinceReset done) address = some (configuration, instant)) ∧
            (usedAfter (uses done s) address).toFinset.card < 5) ∧
        (found.1 = none → found.2 = s') := by
  intro s'
  have hwell : s'.providers.WellFormed := by
    apply wellFormed_accessed
    rw [hempty]
    exact wellFormed_empty
  refine ⟨hwell.bounded, hwell.distinct, fun w address hlasts => ?_⟩
  intro found
  have hrecalls : Recalls done (uses done s) s'.providers := by
    have hstart : Recalls [] [] s.providers := by
      rw [hempty]
      exact recalls_nothing
    exact hstart.accessed hlasts.of_append
  have hknown := hrecalls.peek?_eq_some_iff address
  have hfresh : IsFresh done w.instant address := hlasts done w address [] rfl
  have hfound : found = ((s'.providers.find w.instant address).1,
    { s' with providers := (s'.providers.find w.instant address).2 }) := rfl
  rw [hfound]
  rcases hrecalls.find_cases_of_fresh hfresh with ⟨known, hpeek, hfind⟩ | ⟨hpeek, hfind⟩
  · rw [hfind]
    obtain ⟨hlatest, hfew⟩ := (hknown known).mp hpeek
    refine ⟨fun configuration => ?_, nofun⟩
    rw [hlatest]
    constructor
    · rintro ⟨⟩
      exact ⟨⟨known.2, rfl⟩, hfew⟩
    · rintro ⟨⟨instant, ⟨⟩⟩, -⟩
      rfl
  · rw [hfind]
    refine ⟨fun configuration => iff_of_false nofun ?_, fun _ => rfl⟩
    rintro ⟨⟨instant, hlatest⟩, hfew⟩
    exact nomatch hpeek.symm.trans ((hknown _).mpr ⟨hlatest, hfew⟩)

def saying (issuer : String) : ProviderConfiguration := ⟨some issuer, none, none, []⟩

/-- So many minutes after some start. -/
def minute (n : Nat) : Surroundings := DiscoveredKeys.announced (.ofMinutes n) ""

/-- An access a minute. Something is registered and forgotten, then five addresses are registered,
one of them twice. That one is read, another is read in vain, and a sixth is registered. -/
def busy : List (Surroundings × Access) :=
  [.register "/old" (saying "old"), .reset, .register "/a" (saying "draft"),
    .register "/b" (saying "b"), .register "/a" (saying "a"), .register "/c" (saying "c"),
    .register "/d" (saying "d"), .register "/e" (saying "e"), .read "/a", .read "/old",
    .register "/f" (saying "f")].zipIdx.map fun (access, n) => (minute n, access)

/-- What was read is known still, as it was registered the second time. What had been registered
after its first registration is not, nor what was forgotten. -/
theorem known_iff_recently_used_busy :
    let s' := accessed busy {}
    let found (address : String) := Run.knownProvider address (minute 11) s'
    (found "/a").1 = some (saying "a") ∧ found "/b" = (none, s') ∧ found "/old" = (none, s') := by
  intro s' found
  have hclose : ∀ address ∈ ["/a", "/b", "/old"],
      ∀ moment ∈ busy ++ [(minute 11, .read address)],
      ∀ later ∈ busy ++ [(minute 11, .read address)],
      later.1.instant - moment.1.instant < lifetime := by
    decide
  obtain ⟨-, -, hreads⟩ := known_iff_recently_used busy {} rfl
  have hread (address : String) (h : address ∈ ["/a", "/b", "/old"]) :=
    hreads (minute 11) address (withinLifetime_of_close (hclose address h))
  have hunknown (address : String) (h : address ∈ ["/a", "/b", "/old"])
      (hnone : ∀ configuration, (found address).1 ≠ some configuration) :
      found address = (none, s') := by
    have hfirst : (found address).1 = none := Option.eq_none_iff_forall_ne_some.mpr hnone
    exact Prod.ext hfirst ((hread address h).2 hfirst)
  refine ⟨((hread "/a" (by simp)).1 _).mpr ⟨⟨.ofMinutes 4, by decide⟩, by decide⟩,
    hunknown "/b" (by simp) ?_, hunknown "/old" (by simp) ?_⟩
  · intro configuration hfound
    obtain ⟨-, hfew⟩ := ((hread "/b" (by simp)).1 configuration).mp hfound
    exact absurd hfew (by decide)
  · intro configuration hfound
    obtain ⟨⟨instant, hlatest⟩, -⟩ := ((hread "/old" (by simp)).1 configuration).mp hfound
    have hforgotten : latest? (sinceReset busy) "/old" = none := by decide
    exact nomatch hforgotten.symm.trans hlatest

end BearerAuth.ProviderRegistry

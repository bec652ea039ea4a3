import Mathlib.Data.List.Sublists
import BearerAuth.Proofs.Configuration.Discretion
import BearerAuth.Proofs.Engine.Reply

/-! Which provider decides. Providers are asked by priority, and in the order of their registration
where priorities are the same; the first of them that gives a value decides, errors on the way to
it are reported, and those after it are not asked. -/

namespace BearerAuth

namespace Provider

variable {α : Type} {providers : List (Provider α)} {i j : Fin providers.length}

/-- The provider at one place is asked before that at another: its priority is greater, or it is the
same and the provider was registered earlier. -/
def Outranks (providers : List (Provider α)) (i j : Fin providers.length) : Prop :=
  providers[j].priority < providers[i].priority ∨
    providers[j].priority = providers[i].priority ∧ i < j

instance : Decidable (Outranks providers i j) := inferInstanceAs (Decidable (_ ∨ _))

/-- The places of providers by their ranks. -/
def ranking (providers : List (Provider α)) : List (Fin providers.length) :=
  (List.finRange providers.length).mergeSort fun i j => !decide (Outranks providers j i)

/-- The places that rank before a place. -/
def ahead (providers : List (Provider α)) (i : Fin providers.length) :
    List (Fin providers.length) :=
  (ranking providers).takeWhile (· != i)

theorem Outranks.asymm (h : Outranks providers i j) : ¬ Outranks providers j i := by
  unfold Outranks at *
  omega

theorem Outranks.ne (h : Outranks providers i j) : i ≠ j := by
  rintro rfl
  exact h.asymm h

theorem outranks_or_outranks (h : i ≠ j) : Outranks providers i j ∨ Outranks providers j i := by
  unfold Outranks
  omega

theorem pairwise_ranking (providers : List (Provider α)) :
    (ranking providers).Pairwise (Outranks providers) := by
  have htrans : ∀ i j k, (!decide (Outranks providers j i)) = true →
      (!decide (Outranks providers k j)) = true → (!decide (Outranks providers k i)) = true := by
    simp only [Bool.not_eq_true', decide_eq_false_iff_not]
    unfold Outranks
    omega
  have htotal : ∀ i j,
      (!decide (Outranks providers j i) || !decide (Outranks providers i j)) = true := by
    simp only [Bool.or_eq_true, Bool.not_eq_true', decide_eq_false_iff_not]
    unfold Outranks
    omega
  -- a stable sort allows for places that outrank each other, of which there are none
  have hsorted := List.pairwise_mergeSort htrans htotal (List.finRange providers.length)
  have hnodup : (ranking providers).Nodup :=
    (List.mergeSort_perm _ _).nodup_iff.mpr (List.nodup_finRange _)
  refine hsorted.imp₂ (fun i j hij hne => ?_) hnodup
  simp only [Bool.not_eq_true', decide_eq_false_iff_not] at hij
  exact (outranks_or_outranks hne).resolve_right hij

theorem mem_ranking (i : Fin providers.length) : i ∈ ranking providers :=
  List.mem_mergeSort.mpr (List.mem_finRange i)

/-- The places by their ranks are those of the providers in the order in which they are asked. -/
theorem map_get_ranking (providers : List (Provider α)) :
    (ranking providers).map providers.get = ordered providers := by
  let le (a b : Provider α) : Bool := decide (b.priority ≤ a.priority)
  -- the sort keeps the order of equals, so it may look at the places as well
  have hplaces : (List.finRange providers.length).map (fun i => (providers.get i, i.val)) =
      providers.zipIdx := by
    apply List.ext_getElem
    · simp
    · intro k hk hk'
      simp
  have hsame : ∀ i ∈ List.finRange providers.length, ∀ j ∈ List.finRange providers.length,
      (!decide (Outranks providers j i)) =
        List.zipIdxLE le (providers.get i, i.val) (providers.get j, j.val) := by
    intro i _ j _
    rw [Bool.eq_iff_iff, Bool.not_eq_true', decide_eq_false_iff_not]
    unfold Outranks
    simp only [List.zipIdxLE, le, List.get_eq_getElem, Fin.getElem_fin, decide_eq_true_eq,
      Bool.ite_eq_true_distrib, if_true_right, Bool.false_eq_true, if_false_right]
    omega
  calc (ranking providers).map providers.get
      = ((ranking providers).map fun i => (providers.get i, i.val)).map Prod.fst := by
        rw [List.map_map]
        rfl
    _ = (providers.zipIdx.mergeSort (List.zipIdxLE le)).map Prod.fst := by
        rw [ranking, List.map_mergeSort hsame, hplaces]
    _ = ordered providers := List.mergeSort_zipIdx

theorem ahead_of_split {before after : List (Fin providers.length)}
    (h : ranking providers = before ++ i :: after) : ahead providers i = before := by
  have hnodup := (pairwise_ranking providers).imp fun h => h.ne
  have hbefore : ∀ j ∈ before, (j != i) = true := by
    intro j hj
    rw [h, List.pairwise_append] at hnodup
    exact bne_iff_ne.mpr (hnodup.2.2 j hj i List.mem_cons_self)
  unfold ahead
  rw [h, List.takeWhile_append_of_pos hbefore, List.takeWhile_cons_of_neg (by simp),
    List.append_nil]

theorem exists_ranking_eq (i : Fin providers.length) :
    ∃ after, ranking providers = ahead providers i ++ i :: after := by
  obtain ⟨before, after, hsplit⟩ := List.append_of_mem (mem_ranking i)
  rw [ahead_of_split hsplit]
  exact ⟨after, hsplit⟩

/-- What ranks before a place is what outranks it. -/
theorem mem_ahead_iff : j ∈ ahead providers i ↔ Outranks providers j i := by
  obtain ⟨after, hsplit⟩ := exists_ranking_eq i
  have hranked := pairwise_ranking providers
  rw [hsplit, List.pairwise_append, List.pairwise_cons] at hranked
  obtain ⟨-, ⟨hafter, -⟩, hbefore⟩ := hranked
  refine ⟨fun hj => hbefore j hj i List.mem_cons_self, fun hj => ?_⟩
  have hmem : j ∈ ahead providers i ++ i :: after := hsplit ▸ mem_ranking j
  rcases List.mem_append.mp hmem with hmem | hmem
  · exact hmem
  · rcases List.mem_cons.mp hmem with rfl | hmem
    · exact absurd hj hj.asymm
    · exact absurd hj (hafter j hmem).asymm

theorem pairwise_ahead (i : Fin providers.length) :
    (ahead providers i).Pairwise (Outranks providers) :=
  (pairwise_ranking providers).sublist (List.takeWhile_sublist _)

section Asking

variable (failure : String → ConfigurationError → Event) (p : Parameters) (w : Surroundings)

/-- The process after some providers have been asked in turn, each of their errors reported. -/
def asked : List (Provider α) → ProcessState → ProcessState
  | [], s => s
  | provider :: rest, s =>
    match provider.configure p w s with
    | (.ok _, s) => asked rest s
    | (.error e, s) => asked rest { s with events := s.events ++ [failure provider.name e] }

theorem asked_append (first rest : List (Provider α)) (s : ProcessState) :
    asked failure p w (first ++ rest) s = asked failure p w rest (asked failure p w first s) := by
  induction first generalizing s with
  | nil => rfl
  | cons provider first ih =>
    rw [List.cons_append, asked, asked]
    split
    · exact ih _
    · exact ih _

/-- What the provider at a place answers in its turn, when those that outrank it have been asked,
and the process then. -/
def answer (providers : List (Provider α)) (s : ProcessState) (i : Fin providers.length) :
    Except ConfigurationError (Option α) × ProcessState :=
  providers[i].configure p w (asked failure p w ((ahead providers i).map providers.get) s)

/-- The provider at a place answers with a value in its turn. -/
def Gives (providers : List (Provider α)) (s : ProcessState) (i : Fin providers.length) (v : α) :
    Prop :=
  (answer failure p w providers s i).1 = .ok (some v)

/-- The provider at a place answers with a value, and outranks all others that do. -/
def Wins (providers : List (Provider α)) (s : ProcessState) (i : Fin providers.length) (v : α) :
    Prop :=
  Gives failure p w providers s i v ∧
    ∀ j v', Gives failure p w providers s j v' → j = i ∨ Outranks providers i j

variable {failure p w} {s : ProcessState} {v : α}

/-- What is asked of a provider, and what follows from its answer. -/
theorem firstOf_cons_apply (provider : Provider α) (rest : List (Provider α)) (s : ProcessState) :
    firstOf (fun name e => Run.report (failure name e)) p (provider :: rest) w s =
      match provider.configure p w s with
      | (.ok (some value), s) => (some value, s)
      | (_, _) => firstOf (fun name e => Run.report (failure name e)) p rest w
          (asked failure p w [provider] s) := by
  rw [firstOf, Run.bind_apply]
  simp only [asked]
  generalize provider.configure p w s = answer
  obtain ⟨(e | _ | value), s⟩ := answer <;> rfl

/-- Those that rank first are passed over as long as none of them gives a value. -/
theorem firstOf_of_split {before rest : List (Fin providers.length)}
    (hsplit : ranking providers = before ++ rest)
    (hnone : ∀ j ∈ before, ∀ v, ¬ Gives failure p w providers s j v) :
    firstOf (fun name e => Run.report (failure name e)) p (ordered providers) w s =
      firstOf (fun name e => Run.report (failure name e)) p (rest.map providers.get) w
        (asked failure p w (before.map providers.get) s) := by
  -- the last of them is asked after the others, which are what ranks before it
  induction before using List.reverseRecOn generalizing rest with
  | nil =>
    rw [← map_get_ranking, hsplit]
    rfl
  | append_singleton before j ih =>
    rw [List.append_assoc, List.singleton_append] at hsplit
    rw [ih hsplit fun i hi => hnone i (List.mem_append_left _ hi)]
    have hj := hnone j (List.mem_append_right _ (List.mem_singleton_self j))
    unfold Gives answer at hj
    rw [ahead_of_split hsplit] at hj
    rw [List.map_append, asked_append, List.map_cons, firstOf_cons_apply]
    split
    · next value _ hvalue => exact absurd (congrArg Prod.fst hvalue) (hj value)
    · rfl

theorem firstOf_of_wins (h : Wins failure p w providers s i v) :
    firstOf (fun name e => Run.report (failure name e)) p (ordered providers) w s =
      (some v, (answer failure p w providers s i).2) := by
  obtain ⟨hgives, hbest⟩ := h
  obtain ⟨after, hsplit⟩ := exists_ranking_eq i
  have hnone : ∀ j ∈ ahead providers i, ∀ v, ¬ Gives failure p w providers s j v := by
    intro j hj v' hv'
    have hji := mem_ahead_iff.mp hj
    rcases hbest j v' hv' with rfl | hij
    · exact hji.asymm hji
    · exact hji.asymm hij
  rw [firstOf_of_split hsplit hnone, List.map_cons, firstOf_cons_apply]
  change (match answer failure p w providers s i with
    | (.ok (some value), s) => (some value, s)
    | (_, _) => _) = _
  rw [Gives] at hgives
  rw [← Prod.eta (answer failure p w providers s i), hgives]

theorem exists_wins (h : Gives failure p w providers s i v) :
    ∃ j v', Wins failure p w providers s j v' := by
  classical
  -- of those that give a value, the first in the ranking outranks the others
  let gives (j : Fin providers.length) : Bool :=
    decide (∃ v, Gives failure p w providers s j v)
  have hfound : ((ranking providers).find? gives).isSome = true :=
    List.find?_isSome.mpr ⟨i, mem_ranking i, decide_eq_true ⟨v, h⟩⟩
  obtain ⟨j, hj⟩ := Option.isSome_iff_exists.mp hfound
  obtain ⟨hgives, before, after, hsplit, hbefore⟩ := List.find?_eq_some_iff_append.mp hj
  obtain ⟨v', hv'⟩ := of_decide_eq_true hgives
  refine ⟨j, v', hv', fun k u hk => ?_⟩
  by_cases hkj : k = j
  · exact Or.inl hkj
  · refine Or.inr ((outranks_or_outranks hkj).resolve_left fun hahead => ?_)
    rw [← mem_ahead_iff, ahead_of_split hsplit] at hahead
    have hnot := hbefore k hahead
    rw [Bool.not_eq_true', decide_eq_false_iff_not] at hnot
    exact hnot ⟨u, hk⟩

end Asking

/-- A provider that takes nothing from the events of a process. -/
def OnlyAdds (provider : Provider α) : Prop :=
  ∀ p w (s : ProcessState), s.events <+: (provider.configure p w s).2.events

theorem Discreet.onlyAdds {provider : Provider α} (h : provider.Discreet) : provider.OnlyAdds := by
  intro p w s
  obtain ⟨added, hadded, -⟩ := h p w s
  exact ⟨added, hadded.symm⟩

section Events

variable {failure : String → ConfigurationError → Event} {p : Parameters} {w : Surroundings}
  {s : ProcessState}

theorem isPrefix_asked {asking : List (Provider α)} (h : ∀ provider ∈ asking, provider.OnlyAdds)
    (s : ProcessState) : s.events <+: (asked failure p w asking s).events := by
  induction asking generalizing s with
  | nil => exact List.prefix_rfl
  | cons provider rest ih =>
    obtain ⟨hfirst, hrest⟩ := List.forall_mem_cons.mp h
    have hadds := hfirst p w s
    rw [asked]
    split
    · next hanswer =>
      rw [hanswer] at hadds
      exact hadds.trans (ih hrest _)
    · next e t hanswer =>
      rw [hanswer] at hadds
      have hreported : t.events <+: t.events ++ [failure provider.name e] := List.prefix_append _ _
      exact hadds.trans
        (hreported.trans (ih hrest { t with events := t.events ++ [failure provider.name e] }))

/-- An error that a provider answers with is among the events when those after it are asked. -/
theorem mem_asked_of_error (h : ∀ provider ∈ providers, provider.OnlyAdds)
    {e : ConfigurationError} (hanswer : (answer failure p w providers s i).1 = .error e)
    (after : List (Fin providers.length)) :
    failure providers[i].name e ∈
      (asked failure p w ((ahead providers i ++ i :: after).map providers.get) s).events := by
  have hrest : ∀ provider ∈ after.map providers.get, provider.OnlyAdds := by
    intro provider hmem
    obtain ⟨j, -, rfl⟩ := List.mem_map.mp hmem
    exact h _ (List.getElem_mem _)
  rw [List.map_append, asked_append, List.map_cons, asked]
  split
  · next hvalue => exact nomatch (congrArg Prod.fst hvalue).symm.trans hanswer
  · next e' s' herror =>
    obtain rfl := Except.error.inj ((congrArg Prod.fst herror).symm.trans hanswer)
    refine (isPrefix_asked hrest _).subset (List.mem_append_right _ ?_)
    exact List.mem_singleton_self _

end Events

/-- How a choice is made among the providers that are there from the start and those registered
after them. -/
structure Decides (failure : String → ConfigurationError → Event)
    (initial registered : List (Provider α)) (choice : Parameters → Run (Option α)) : Prop where
  /-- Before a provider, those that outrank it have their turns, in the order of their ranks. -/
  turns : ∀ i : Fin (initial ++ registered).length,
    (ahead (initial ++ registered) i).Pairwise (Outranks (initial ++ registered)) ∧
      ∀ j, j ∈ ahead (initial ++ registered) i ↔ Outranks (initial ++ registered) j i
  /-- A value is chosen if its provider outranks all others that give one. -/
  value : ∀ p w s v, (choice p w s).1 = some v ↔
    ∃ i, Wins failure p w (initial ++ registered) s i v
  /-- Nothing is chosen if no provider gives a value. -/
  nothing : ∀ p w s, (choice p w s).1 = none ↔
    ∀ i v, ¬ Gives failure p w (initial ++ registered) s i v
  /-- No one is asked after a provider whose value is chosen. -/
  decided : ∀ p w s i v, Wins failure p w (initial ++ registered) s i v →
    (choice p w s).2 = (answer failure p w (initial ++ registered) s i).2
  /-- If nothing is chosen, all have been asked. -/
  undecided : ∀ p w s, (∀ i v, ¬ Gives failure p w (initial ++ registered) s i v) →
    (choice p w s).2 = asked failure p w (ordered (initial ++ registered)) s
  /-- Errors up to the choice are among the events, unless a provider takes some away. -/
  reported : (∀ provider ∈ registered, provider.OnlyAdds) → ∀ p w s i e,
    (answer failure p w (initial ++ registered) s i).1 = .error e →
    (∀ j v, Gives failure p w (initial ++ registered) s j v →
      Outranks (initial ++ registered) i j) →
    failure (initial ++ registered)[i].name e ∈ (choice p w s).2.events

theorem firstOf_of_none {failure : String → ConfigurationError → Event} {p : Parameters}
    {w : Surroundings} {s : ProcessState}
    (h : ∀ i v, ¬ Gives failure p w providers s i v) :
    firstOf (fun name e => Run.report (failure name e)) p (ordered providers) w s =
      (none, asked failure p w (ordered providers) s) := by
  have hall := firstOf_of_split (List.append_nil _).symm fun i (_ : i ∈ ranking providers) => h i
  rw [map_get_ranking] at hall
  exact hall

theorem decides_firstOf (failure : String → ConfigurationError → Event)
    {initial : List (Provider α)} (h : ∀ provider ∈ initial, provider.OnlyAdds)
    (registered : List (Provider α)) :
    Decides failure initial registered fun p =>
      firstOf (fun name e => Run.report (failure name e)) p (ordered (initial ++ registered)) where
  turns i := ⟨pairwise_ahead i, fun _ => mem_ahead_iff⟩
  value p w s v := by
    constructor
    · intro hchosen
      by_cases hgives : ∃ i v, Gives failure p w (initial ++ registered) s i v
      · obtain ⟨i, v', hv'⟩ := hgives
        obtain ⟨j, u, hwins⟩ := exists_wins hv'
        rw [firstOf_of_wins hwins] at hchosen
        exact ⟨j, Option.some.inj hchosen ▸ hwins⟩
      · simp only [not_exists] at hgives
        rw [firstOf_of_none hgives] at hchosen
        exact nomatch hchosen
    · rintro ⟨i, hwins⟩
      rw [firstOf_of_wins hwins]
  nothing p w s := by
    constructor
    · intro hnone i v hgives
      obtain ⟨j, u, hwins⟩ := exists_wins hgives
      rw [firstOf_of_wins hwins] at hnone
      exact nomatch hnone
    · intro hnone
      rw [firstOf_of_none hnone]
  decided p w s i v hwins := by rw [firstOf_of_wins hwins]
  undecided p w s hnone := by rw [firstOf_of_none hnone]
  reported hregistered p w s i e hanswer hbefore := by
    have hall : ∀ provider ∈ initial ++ registered, provider.OnlyAdds :=
      List.forall_mem_append.mpr ⟨h, hregistered⟩
    by_cases hgives : ∃ i v, Gives failure p w (initial ++ registered) s i v
    · -- the provider had its turn before the one that decides
      obtain ⟨j, v, hv⟩ := hgives
      obtain ⟨k, u, hwins⟩ := exists_wins hv
      have hik : i ∈ ahead (initial ++ registered) k := mem_ahead_iff.mpr (hbefore k u hwins.1)
      obtain ⟨before, after, hsplit⟩ := List.append_of_mem hik
      obtain ⟨rest, hranking⟩ := exists_ranking_eq k
      rw [hsplit, List.append_assoc, List.cons_append] at hranking
      rw [firstOf_of_wins hwins]
      refine (hall _ (List.getElem_mem k.isLt) p w _).subset ?_
      rw [hsplit, ← ahead_of_split hranking]
      exact mem_asked_of_error hall hanswer after
    · simp only [not_exists] at hgives
      obtain ⟨after, hranking⟩ := exists_ranking_eq i
      rw [firstOf_of_none hgives, ← map_get_ranking, hranking]
      exact mem_asked_of_error hall hanswer after

end Provider

namespace Factory

theorem registering_eq (verifiers : List (Provider (Shared Verifier)))
    (engines : List (Provider (Shared Engine))) :
    registering verifiers engines =
      { verifiers := Provider.verifiers ++ verifiers, engines := Provider.engines ++ engines } := by
  have hverifiers : ∀ f : Factory, verifiers.foldl registerVerifier f =
      { f with verifiers := f.verifiers ++ verifiers } := by
    induction verifiers with
    | nil => intro f; simp
    | cons provider rest ih =>
      intro f
      rw [List.foldl_cons, ih, registerVerifier, List.append_assoc]
      rfl
  have hengines : ∀ f : Factory, engines.foldl registerEngine f =
      { f with engines := f.engines ++ engines } := by
    induction engines with
    | nil => intro f; simp
    | cons provider rest ih =>
      intro f
      rw [List.foldl_cons, ih, registerEngine, List.append_assoc]
      rfl
  rw [registering, hverifiers, hengines]

/-- Whatever providers are registered, with whatever priorities, those of verifiers and those of
engines are asked by their ranks: the first that gives a value decides, the errors on the way to it
are reported, and no one is asked after it. -/
theorem decides_by_rank (verifiers : List (Provider (Shared Verifier)))
    (engines : List (Provider (Shared Engine))) :
    Provider.Decides
      (fun name e => {
        level := .error
        area := .factories
        message := s!"Verification provider {name} failed to configure a verifier: {e.message}" })
      Provider.verifiers verifiers (registering verifiers engines).verifier? ∧
    Provider.Decides
      (fun name e => {
        level := .error
        area := .factories
        message := s!"Engine provider {name} failed to configure an engine: {e.message}" })
      Provider.engines engines (registering verifiers engines).engine? := by
  rw [registering_eq]
  constructor
  · exact Provider.decides_firstOf _ (fun provider hmem =>
      (discreet_initial.verifiers provider hmem).onlyAdds) verifiers
  · exact Provider.decides_firstOf _ (fun provider hmem =>
      (discreet_initial.engines provider hmem).onlyAdds) engines

/-- Of three engines that are registered, the first fails and is reported, and of the others, which
have the same priority, the earlier one is chosen. -/
theorem decides_by_rank_tied :
    let failing : Provider (Shared Engine) := ⟨"a", 20, fun _ => pure (.error .missingEngine)⟩
    let earlier : Provider (Shared Engine) := ⟨"b", 10, fun _ => pure (.ok (some ⟨1, .standard⟩))⟩
    let later : Provider (Shared Engine) := ⟨"c", 10, fun _ => pure (.ok (some ⟨2, .standard⟩))⟩
    let choice := (registering [] [failing, earlier, later]).engine? (.ofList []) midnight {}
    choice.1 = some ⟨1, .standard⟩ ∧ ∃ event ∈ choice.2.events,
      event.message = "Engine provider a failed to configure an engine: " ++
        ConfigurationError.message .missingEngine := by
  intro failing earlier later choice
  obtain ⟨-, hengines⟩ := decides_by_rank [] [failing, earlier, later]
  have hplaces : (Provider.engines ++ [failing, earlier, later]).length = 4 := rfl
  constructor
  · refine (hengines.value (.ofList []) midnight {} _).mpr ⟨⟨2, by omega⟩, rfl, ?_⟩
    -- the provider before the two has failed, and the one that is there from the start ranks lowest
    rintro ⟨_ | _ | _ | _ | place, hplace⟩ v hgives
    · exact Or.inr (Or.inl (show (0 : Int) < 10 by decide))
    · exact nomatch hgives
    · exact Or.inl rfl
    · exact Or.inr (Or.inr ⟨rfl, show 2 < 3 by decide⟩)
    · omega
  · have honlyAdds : ∀ provider ∈ [failing, earlier, later], provider.OnlyAdds := by
      simp [Provider.OnlyAdds, failing, earlier, later]
    refine ⟨_, hengines.reported honlyAdds (.ofList []) midnight {} ⟨1, by omega⟩ .missingEngine
      rfl ?_, rfl⟩
    rintro ⟨_ | _ | _ | _ | place, hplace⟩ v hgives
    · exact Or.inl (show (0 : Int) < 20 by decide)
    · exact nomatch hgives
    · exact Or.inl (show (10 : Int) < 20 by decide)
    · exact Or.inl (show (10 : Int) < 20 by decide)
    · omega

end Factory

end BearerAuth

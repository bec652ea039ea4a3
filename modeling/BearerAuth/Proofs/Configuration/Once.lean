import BearerAuth.Proofs.Engine.Reply
import BearerAuth.Proofs.Filter.Steps
import BearerAuth.Proofs.Surroundings.Course

namespace BearerAuth

/-- The things that a slot is for. -/
def Slot.Value : Slot → Type
  | .exclusions => List PathExclusion
  | .engine => Engine
  | .verifier => Verifier

/-- The error if there is nothing for a slot. For want of exclusions nothing fails. -/
def Slot.missing? : Slot → Option ConfigurationError
  | .exclusions => none
  | .engine => some .missingEngine
  | .verifier => some .missingVerifier

def Slots.get (s : Slots) : (slot : Slot) → Option (Shared slot.Value)
  | .exclusions => s.exclusions
  | .engine => s.engine
  | .verifier => s.verifier

namespace FrozenConfiguration

/-- A call that freezes one of the slots, with what there may be for it. -/
inductive Call where
  | exclusions (candidate : Option (Shared (List PathExclusion)))
  | engine (candidate : Option (Shared Engine)) (fallback : Run (Option (Shared Engine)))
  | verifier (candidate : Option (Shared Verifier))

namespace Call

def slot : Call → Slot
  | exclusions _ => .exclusions
  | engine _ _ => .engine
  | verifier _ => .verifier

/-- What a call has to offer: its candidate, or else its fallback if it is for the engine, and an
empty list if it is for the exclusions. -/
def offer : (call : Call) → Run (Option (Shared call.slot.Value))
  | exclusions (some candidate) => pure (some candidate)
  | exclusions none => do return some (← Shared.fresh [])
  | engine (some candidate) _ => pure (some candidate)
  | engine none fallback => fallback
  | verifier candidate => pure candidate

/-- What a call has to offer for a slot, which is nothing if it is for another one. -/
def offerFor (call : Call) (slot : Slot) : Run (Option (Shared slot.Value)) :=
  if h : call.slot = slot then h ▸ call.offer else pure none

theorem offerFor_slot (call : Call) : call.offerFor call.slot = call.offer := dif_pos rfl

theorem offerFor_of_ne {call : Call} {slot : Slot} (h : call.slot ≠ slot) :
    call.offerFor slot = pure none := dif_neg h

end Call

/-- Makes a call. The answer is whether the slot was set by it. -/
def answer (f : FrozenConfiguration) :
    Call → Run (Except ConfigurationError Bool × FrozenConfiguration)
  | .exclusions candidate => do
    let (set, f) ← f.freezeExclusions candidate
    return (.ok set, f)
  | .engine candidate fallback => f.freezeEngineBy candidate fallback
  | .verifier candidate => pure (f.freezeVerifier candidate)

def perform (f : FrozenConfiguration) (call : Call) : Run FrozenConfiguration := do
  let (_, f) ← f.answer call
  return f

/-- What calls in turn have to offer for a slot, each at its own moment, whether or not they are
asked for it. -/
def offers (slot : Slot) (f : FrozenConfiguration) (moments : List (Surroundings × Call))
    (s : ProcessState) : List (Shared slot.Value) :=
  Run.notes perform (fun _ w s call => (call.offerFor slot w s).1.toList) f moments s

/-- A configuration with something in one of its slots. -/
def put (f : FrozenConfiguration) : (slot : Slot) → Shared slot.Value → FrozenConfiguration
  | .exclusions, exclusions => { f with exclusions := some exclusions }
  | .engine, engine => { f with engine := some engine }
  | .verifier, verifier => { f with verifier := some verifier }

theorem get_put_self (f : FrozenConfiguration) (slot : Slot) (v : Shared slot.Value) :
    (f.put slot v).get slot = some v := by
  cases slot <;> rfl

theorem get_put_of_ne (f : FrozenConfiguration) {slot other : Slot} (h : slot ≠ other)
    (v : Shared slot.Value) : (f.put slot v).get other = f.get other := by
  cases slot <;> cases other <;> first | rfl | exact absurd rfl h

variable {f : FrozenConfiguration} {call : Call}

/-- A call for a slot that is set does nothing, not even ask for its fallback. -/
theorem answer_of_set {v : Shared call.slot.Value} (h : f.get call.slot = some v)
    (w : Surroundings) (s : ProcessState) : f.answer call w s = ((.ok false, f), s) := by
  cases call with
  | exclusions candidate =>
    have hset : f.exclusions = some v := h
    unfold answer freezeExclusions
    rw [hset]
    rfl
  | engine candidate fallback =>
    have hset : f.engine = some v := h
    unfold answer freezeEngineBy
    rw [hset]
    rfl
  | verifier candidate =>
    have hset : f.verifier = some v := h
    unfold answer freezeVerifier
    rw [hset]
    rfl

/-- A slot that is not set takes what a call has to offer. If that is nothing, the call fails. -/
theorem answer_of_unset (h : f.get call.slot = none) (w : Surroundings) (s : ProcessState) :
    (f.answer call w s).2 = (call.offer w s).2 ∧
      match (call.offer w s).1 with
      | some v => (f.answer call w s).1 = (.ok true, f.put call.slot v)
      | none => ∃ e, call.slot.missing? = some e ∧ (f.answer call w s).1 = (.error e, f) := by
  cases call with
  | exclusions candidate =>
    have hunset : f.exclusions = none := h
    unfold answer freezeExclusions
    rw [hunset]
    cases candidate with
    | some candidate => exact ⟨rfl, rfl⟩
    | none => exact ⟨rfl, rfl⟩
  | engine candidate fallback =>
    have hunset : f.engine = none := h
    unfold answer freezeEngineBy
    rw [hunset]
    cases candidate with
    | some candidate => exact ⟨rfl, rfl⟩
    | none =>
      -- here alone the fallback is asked for
      simp only [Call.offer, Run.bind_apply]
      cases (fallback w s).1 with
      | some engine => exact ⟨rfl, rfl⟩
      | none => exact ⟨rfl, .missingEngine, rfl, rfl⟩
  | verifier candidate =>
    have hunset : f.verifier = none := h
    unfold answer freezeVerifier
    rw [hunset]
    cases candidate with
    | some candidate => exact ⟨rfl, rfl⟩
    | none => exact ⟨rfl, .missingVerifier, rfl, rfl⟩

/-- A call leaves everything as it is, or puts what it has to offer into its slot, where nothing was
before. -/
theorem answer_cases (f : FrozenConfiguration) (call : Call) (w : Surroundings)
    (s : ProcessState) :
    ((f.answer call w s).1.2 = f ∧ f.get call.slot = (f.get call.slot).or (call.offer w s).1) ∨
      ∃ v, f.get call.slot = none ∧ (call.offer w s).1 = some v ∧
        (f.answer call w s).1.2 = f.put call.slot v := by
  cases hbefore : f.get call.slot with
  | some v =>
    left
    rw [answer_of_set hbefore, Option.some_or]
    exact ⟨rfl, rfl⟩
  | none =>
    obtain ⟨-, houtcome⟩ := answer_of_unset hbefore w s
    cases hoffer : (call.offer w s).1 with
    | some v =>
      right
      rw [hoffer] at houtcome
      exact ⟨v, rfl, rfl, congrArg Prod.snd houtcome⟩
    | none =>
      left
      rw [hoffer] at houtcome
      obtain ⟨e, -, hfailed⟩ := houtcome
      exact ⟨congrArg Prod.snd hfailed, rfl⟩

/-- A call takes nothing from the other slots and puts nothing into them. -/
theorem get_answer_of_ne {slot : Slot} (hslot : call.slot ≠ slot) (f : FrozenConfiguration)
    (w : Surroundings) (s : ProcessState) :
    (f.answer call w s).1.2.get slot = f.get slot := by
  rcases f.answer_cases call w s with ⟨hstays, -⟩ | ⟨v, -, -, htakes⟩
  · rw [hstays]
  · rw [htakes]
    exact get_put_of_ne f hslot v

/-- After a call its slot has what it had before, or else what the call had to offer. -/
theorem get_answer_self (f : FrozenConfiguration) (call : Call) (w : Surroundings)
    (s : ProcessState) :
    (f.answer call w s).1.2.get call.slot = (f.get call.slot).or (call.offer w s).1 := by
  rcases f.answer_cases call w s with ⟨hstays, hsame⟩ | ⟨v, hbefore, hoffer, htakes⟩
  · rw [hstays]
    exact hsame
  · rw [htakes, get_put_self, hbefore, hoffer, Option.none_or]

/-- Whichever slot a call is for, every slot keeps what it has, or else takes what the call has to
offer for it. -/
theorem get_perform (f : FrozenConfiguration) (call : Call) (slot : Slot) (w : Surroundings)
    (s : ProcessState) :
    (f.perform call w s).1.get slot = (f.get slot).or (call.offerFor slot w s).1 := by
  have hperform : (f.perform call w s).1 = (f.answer call w s).1.2 := rfl
  rw [hperform]
  by_cases hslot : call.slot = slot
  · subst hslot
    rw [Call.offerFor_slot]
    exact f.get_answer_self call w s
  · rw [Call.offerFor_of_ne hslot, Run.pure_apply, Option.or_none]
    exact get_answer_of_ne hslot f w s

/-- A slot that is set keeps what it has, whatever is called. -/
theorem get_course_of_set {slot : Slot} {v : Shared slot.Value} (h : f.get slot = some v)
    (moments : List (Surroundings × Call)) (s : ProcessState) :
    (Run.course perform f moments s).1.get slot = some v := by
  let holds (f : FrozenConfiguration) : Prop := f.get slot = some v
  have hkeeps : ∀ w call, (w, call) ∈ moments → ∀ f s, holds f → holds (f.perform call w s).1 := by
    intro w call _ f s hset
    change (f.perform call w s).1.get slot = some v
    rw [get_perform, show f.get slot = some v from hset, Option.some_or]
  exact Run.course_keeps hkeeps h s

/-- In the course of any calls a slot that was not set takes the first thing that is offered for
it. -/
theorem get_course {slot : Slot} (h : f.get slot = none) (moments : List (Surroundings × Call))
    (s : ProcessState) :
    (Run.course perform f moments s).1.get slot = (offers slot f moments s).head? := by
  let holdsFirst (offered : List (Shared slot.Value)) (f : FrozenConfiguration) : Prop :=
    f.get slot = offered.head?
  -- the invariant is that the first of all offers until now is held, or nothing if there was none
  have hkeeps : ∀ offered f, holdsFirst offered f → ∀ w s call,
      holdsFirst (offered ++ (call.offerFor slot w s).1.toList) (f.perform call w s).1 := by
    intro offered f hfirst w s call
    change (f.perform call w s).1.get slot = _
    rw [get_perform, show f.get slot = offered.head? from hfirst, List.head?_append,
      Option.head?_toList]
  have hstart : holdsFirst [] f := h
  exact Run.course_notes_keeps hkeeps moments hstart s

/-- After any calls, with any candidates and fallbacks, every slot has the first thing that was
offered for it. If something was offered for the slot of a call before, the call answers that it did
not set the slot, and nothing else happens: it does not even ask for its fallback. If nothing was,
the slot takes what the call has to offer and keeps it, whatever is called later; a call that has
nothing to offer fails and leaves the slot as it is. No call changes another slot than its own. -/
theorem freezes_once (moments : List (Surroundings × Call)) (call : Call) (w : Surroundings)
    (s : ProcessState) :
    let f := (Run.course perform {} moments s).1
    let s' := (Run.course perform {} moments s).2
    let offered := offers call.slot {} moments s
    let offer := call.offer w s'
    let next := f.answer call w s'
    (∀ slot, f.get slot = (offers slot {} moments s).head?) ∧
      (offered ≠ [] → next = ((.ok false, f), s')) ∧
      (offered = [] → next.2 = offer.2 ∧
        (∀ v, offer.1 = some v → next.1.1 = .ok true ∧
          ∀ later s'', (Run.course perform next.1.2 later s'').1.get call.slot = some v) ∧
        (offer.1 = none → ∃ e, call.slot.missing? = some e ∧ next.1.1 = .error e ∧
          next.1.2.get call.slot = none)) ∧
      ∀ slot, call.slot ≠ slot → next.1.2.get slot = f.get slot := by
  intro f s' offered offer next
  have hunset (slot : Slot) : ({} : FrozenConfiguration).get slot = none := by
    cases slot <;> rfl
  have hfirst (slot : Slot) : f.get slot = (offers slot {} moments s).head? :=
    get_course (hunset slot) moments s
  refine ⟨hfirst, ?_, ?_, fun slot hslot => get_answer_of_ne hslot f w s'⟩
  · intro hoffered
    obtain ⟨v, later, hsplit⟩ := List.exists_cons_of_ne_nil hoffered
    have hset : f.get call.slot = some v := by
      rw [hfirst call.slot, show offers call.slot {} moments s = v :: later from hsplit,
        List.head?_cons]
    exact answer_of_set hset w s'
  · intro hnothing
    have hbefore : f.get call.slot = none := by
      rw [hfirst call.slot, show offers call.slot {} moments s = [] from hnothing, List.head?_nil]
    obtain ⟨hprocess, houtcome⟩ := answer_of_unset hbefore w s'
    refine ⟨hprocess, ?_, ?_⟩
    · intro v hv
      rw [show (call.offer w s').1 = some v from hv] at houtcome
      have hset : next.1.2.get call.slot = some v := by
        rw [show next.1 = _ from houtcome]
        exact get_put_self f call.slot v
      exact ⟨congrArg Prod.fst houtcome, fun later s'' => get_course_of_set hset later s''⟩
    · intro hv
      rw [show (call.offer w s').1 = none from hv] at houtcome
      obtain ⟨e, hmissing, hfailed⟩ := houtcome
      refine ⟨e, hmissing, congrArg Prod.fst hfailed, ?_⟩
      rw [show next.1 = _ from hfailed]
      exact hbefore

/-- After a call in vain the engine is set by a fallback that makes a new one. Called again, the
fallback makes no other, and of the verifier nothing is known in all this. -/
theorem freezes_once_again :
    let fallback : Run (Option (Shared Engine)) := do return some (← Shared.fresh .standard)
    let moments : List (Surroundings × Call) :=
      [(midnight, .engine none (pure none)), (midnight, .engine none fallback)]
    let run := Run.course perform {} moments {}
    run.1.get .engine = some ⟨0, .standard⟩ ∧ run.2.identities = 1 ∧
      run.1.answer (.engine none fallback) midnight run.2 = ((.ok false, run.1), run.2) ∧
      (run.1.answer (.verifier none) midnight run.2).1.1 = .error .missingVerifier := by
  intro fallback moments run
  let late : Call := .engine none fallback
  obtain ⟨hfirst, hagain, -⟩ := freezes_once moments late midnight {}
  obtain ⟨-, -, hunset, -⟩ := freezes_once moments (.verifier none) midnight {}
  have hoffers : offers .engine {} moments {} = [⟨0, .standard⟩] := rfl
  have hengine : run.1.get .engine = some ⟨0, .standard⟩ := by
    rw [hfirst .engine, hoffers, List.head?_cons]
  have hlate : run.1.answer late midnight run.2 = ((.ok false, run.1), run.2) := by
    apply hagain
    exact List.cons_ne_nil _ _
  obtain ⟨-, -, hvain⟩ := hunset rfl
  obtain ⟨_, ⟨⟩, hfailed, -⟩ := hvain rfl
  exact ⟨hengine, rfl, hlate, hfailed⟩

end FrozenConfiguration

end BearerAuth

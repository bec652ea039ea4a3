import Mathlib.Data.List.Basic
import BearerAuth.Proofs.Surroundings.Reports

namespace BearerAuth

/-- The slots of a configuration, in the order in which they are frozen. -/
inductive Slot where
  | exclusions
  | engine
  | verifier
deriving DecidableEq, Repr

namespace Slot

def all : List Slot := [.exclusions, .engine, .verifier]

def name : Slot → String
  | .exclusions => "path exclusions"
  | .engine => "engine"
  | .verifier => "verifier"

/-- The warning that a slot was modified after it was frozen. -/
def warning (slot : Slot) : Event where
  level := .warn
  area := .frozen
  message :=
    s!"JWT authentication {slot.name} was modified after the filter configuration was frozen, " ++
      "the modification is ignored"

theorem mem_all (slot : Slot) : slot ∈ all := by
  cases slot <;> decide

theorem warning_injective : Function.Injective warning := by
  intro a b h
  cases a <;> cases b <;> revert h <;> decide

end Slot

/-- The identity of the thing in a slot, if there is one. -/
def Slots.identity? (s : Slots) : Slot → Option Nat
  | .exclusions => s.exclusions.map Shared.identity
  | .engine => s.engine.map Shared.identity
  | .verifier => s.verifier.map Shared.identity

namespace Filter

/-- One thing that is done to a filter. -/
inductive Step where
  | assign (attributes : Attributes)
  | configure (factory : Factory) (p : Parameters)
  | request (r : Request)

def Step.request? : Step → Option Request
  | request r => some r
  | _ => none

/-- Does one thing to a filter; only a request is answered. -/
def perform (f : Filter) :
    Step → Run (Option (Answer (Attempt FilterError FilterOutcome)) × Filter)
  | .assign attributes => pure (none, { f with attributes })
  | .configure factory p => do return (none, ← f.configure factory p)
  | .request r => do
    let (answer, f) ← f.handle r
    return (some answer, f)

/-- Does things to a filter in turn, each in surroundings of its own: the answers to the requests
among them, the filter afterwards, and the process. -/
def play : Filter → List (Surroundings × Step) → ProcessState →
    List (Answer (Attempt FilterError FilterOutcome)) × Filter × ProcessState
  | f, [], s => ([], f, s)
  | f, (w, step) :: rest, s =>
    let ((answer?, f), s) := f.perform step w s
    let (answers, last) := play f rest s
    (answer?.toList ++ answers, last)

/-- What is configured for a slot is not the thing that is frozen. -/
def IsModified (f : Filter) (slot : Slot) : Prop :=
  ∃ current, f.attributes.identity? slot = some current ∧ f.frozen.identity? slot ≠ some current

instance (f : Filter) (slot : Slot) : Decidable (f.IsModified slot) :=
  decidable_of_iff
    (f.attributes.identity? slot ≠ none ∧
      f.frozen.identity? slot ≠ f.attributes.identity? slot) <| by
    unfold IsModified
    cases f.attributes.identity? slot <;> simp

/-- The warnings about the slots that were modified. -/
def modifications (f : Filter) : List Event :=
  Slot.all.flatMap fun slot => if f.IsModified slot then [slot.warning] else []

theorem warning_mem_modifications_iff (f : Filter) (slot : Slot) :
    slot.warning ∈ f.modifications ↔ f.IsModified slot := by
  unfold modifications
  rw [List.mem_flatMap]
  constructor
  · rintro ⟨other, -, hmem⟩
    split at hmem
    · next hmodified =>
      rw [Slot.warning_injective (List.mem_singleton.mp hmem)]
      exact hmodified
    · exact nomatch hmem
  · intro hmodified
    refine ⟨slot, slot.mem_all, ?_⟩
    rw [if_pos hmodified]
    exact List.mem_singleton_self _

/-- All three slots are frozen. -/
structure IsFrozen (f : Filter) : Prop where
  exclusions : f.frozen.exclusions.isSome = true
  engine : f.frozen.engine.isSome = true
  verifier : f.frozen.verifier.isSome = true

/-- The comparison of a slot reports it if it was modified. -/
theorem warnIfModified_apply {α : Type} (f : Filter) (slot : Slot) (current : Option (Shared α))
    (frozen : Shared α) (hcurrent : f.attributes.identity? slot = current.map Shared.identity)
    (hfrozen : f.frozen.identity? slot = some frozen.identity) (w : Surroundings)
    (s : ProcessState) :
    (FrozenConfiguration.warnIfModified slot.name current (some frozen) w s).2 =
      { s with events := s.events ++ if f.IsModified slot then [slot.warning] else [] } := by
  -- identities alone are compared, so the comparison can be stated without the slot's type
  have hmodified : f.IsModified slot ↔
      ∃ c, current.map Shared.identity = some c ∧ some frozen.identity ≠ some c := by
    unfold IsModified
    rw [hcurrent, hfrozen]
  simp only [hmodified]
  cases current with
  | none => simp [FrozenConfiguration.warnIfModified]
  | some current =>
    unfold FrozenConfiguration.warnIfModified
    by_cases hsame : current.identity = frozen.identity
    · simp [Shared.isSame, hsame]
    · simp [Shared.isSame, hsame, Ne.symm hsame, Run.say, Run.report, Slot.warning]

/-- A filter that is frozen stays as it is when it is frozen again, and reports what was
modified. -/
theorem freeze_of_isFrozen {f : Filter} (h : f.IsFrozen) (w : Surroundings) (s : ProcessState) :
    f.freeze w s = ((.ok (), f), { s with events := s.events ++ f.modifications }) := by
  obtain ⟨exclusions, hexclusions⟩ := Option.isSome_iff_exists.mp h.exclusions
  obtain ⟨engine, hengine⟩ := Option.isSome_iff_exists.mp h.engine
  obtain ⟨verifier, hverifier⟩ := Option.isSome_iff_exists.mp h.verifier
  have hex := f.warnIfModified_apply .exclusions f.attributes.exclusions exclusions rfl
    (congrArg (Option.map Shared.identity) hexclusions) w
  have hen := f.warnIfModified_apply .engine f.attributes.engine engine rfl
    (congrArg (Option.map Shared.identity) hengine) w
  have hve := f.warnIfModified_apply .verifier f.attributes.verifier verifier rfl
    (congrArg (Option.map Shared.identity) hverifier) w
  -- each comparison adds to what the ones before it have added
  simp only [Slot.name] at hex hen hve
  simp only [freeze, freezeExclusions, freezeEngine, freezeVerifier, hexclusions, hengine,
    hverifier, Option.isSome_some, if_true, Run.bind_apply, Run.pure_apply]
  rw [hex, hen, hve]
  simp only [List.append_assoc, modifications, Slot.all, List.flatMap_cons, List.flatMap_nil,
    List.append_nil]

end Filter

end BearerAuth

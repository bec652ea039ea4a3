import BearerAuth.Proofs.Surroundings.Course

namespace BearerAuth.Run

variable {α β γ σ ι : Type} {record : ProcessState → List γ} {P : γ → Prop}

/-- A computation that leaves a record of the process as it is, but for new entries of some kind. -/
def Appends (record : ProcessState → List γ) (P : γ → Prop) (x : Run α) : Prop :=
  ∀ w s, ∃ added, record (x w s).2 = record s ++ added ∧ ∀ entry ∈ added, P entry

namespace Appends

theorem of_eq {x : Run α} (h : ∀ w s, record (x w s).2 = record s) : x.Appends record P := by
  intro w s
  exact ⟨[], by rw [h, List.append_nil], nofun⟩

/-- Of two computations in turn, the first adds its entries before the second. -/
theorem bind {x : Run α} {f : α → Run β} (hx : x.Appends record P)
    (hf : ∀ a, (f a).Appends record P) : (x >>= f).Appends record P := by
  intro w s
  -- the second adds to the entries that the first has left
  obtain ⟨first, hfirst, hkind⟩ := hx w s
  obtain ⟨second, hsecond, hkind'⟩ := hf (x w s).1 w (x w s).2
  refine ⟨first ++ second, ?_, fun entry hentry => ?_⟩
  · rw [bind_apply, hsecond, hfirst, List.append_assoc]
  · exact (List.mem_append.mp hentry).elim (hkind entry) (hkind' entry)

end Appends

/-- A dialogue adds what its questions add, part after part and each at its own moment, as long as
what makes them add no other parts is kept by each of them. -/
theorem dialogue_appends_each {ask : σ → ι → Run (α × σ)} {Q : σ → ProcessState → Prop}
    {P : Surroundings → ι → List γ → Prop}
    (hadds : ∀ x i w s, Q x s →
      ∃ parts : List (List γ), record (ask x i w s).2 = record s ++ parts.flatten ∧
        ∀ part ∈ parts, P w i part)
    (hkeeps : ∀ x i w s, Q x s → Q (ask x i w s).1.2 (ask x i w s).2)
    (moments : List (Surroundings × ι)) {x : σ} {s : ProcessState} (hx : Q x s) :
    ∃ parts : List (List γ), record (dialogue ask x moments s).2 = record s ++ parts.flatten ∧
      ∀ part ∈ parts, ∃ w i, (w, i) ∈ moments ∧ P w i part := by
  induction moments generalizing x s with
  | nil => exact ⟨[], (List.append_nil _).symm, nofun⟩
  | cons moment moments ih =>
    obtain ⟨w, i⟩ := moment
    obtain ⟨first, hfirst, hkind⟩ := hadds x i w s hx
    obtain ⟨others, hothers, hkind'⟩ := ih (hkeeps x i w s hx)
    refine ⟨first ++ others, ?_, fun part hpart => ?_⟩
    · rw [dialogue, hothers, hfirst, List.append_assoc, List.flatten_append]
    · rcases List.mem_append.mp hpart with hpart | hpart
      · exact ⟨w, i, List.mem_cons_self, hkind part hpart⟩
      · obtain ⟨w', i', hmoment, hpart⟩ := hkind' part hpart
        exact ⟨w', i', List.mem_cons_of_mem _ hmoment, hpart⟩

end BearerAuth.Run

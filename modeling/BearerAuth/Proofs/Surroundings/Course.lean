import BearerAuth.Surroundings.Run

namespace BearerAuth.Run

variable {σ ι α β : Type}

/-- Does things to a state in turn, each in surroundings of its own: the state afterwards, and the
process. -/
def course (act : σ → ι → Run σ) : σ → List (Surroundings × ι) → ProcessState → σ × ProcessState
  | x, [], s => (x, s)
  | x, (w, i) :: rest, s => course act (act x i w s).1 rest (act x i w s).2

/-- What is noted as things are done to a state in turn. -/
def notes (act : σ → ι → Run σ) (note : σ → Surroundings → ProcessState → ι → List α) :
    σ → List (Surroundings × ι) → ProcessState → List α
  | _, [], _ => []
  | x, (w, i) :: rest, s => note x w s i ++ notes act note (act x i w s).1 rest (act x i w s).2

/-- Asks things of a state in turn, each in surroundings of its own: the answers, the state
afterwards, and the process. -/
def dialogue (ask : σ → ι → Run (α × σ)) :
    σ → List (Surroundings × ι) → ProcessState → (List α × σ) × ProcessState
  | x, [], s => (([], x), s)
  | x, (w, i) :: rest, s =>
    let first := ask x i w s
    let others := dialogue ask first.1.2 rest first.2
    ((first.1.1 :: others.1.1, others.1.2), others.2)

theorem dialogue_singleton (ask : σ → ι → Run (α × σ)) (x : σ) (w : Surroundings) (i : ι)
    (s : ProcessState) :
    dialogue ask x [(w, i)] s = (([(ask x i w s).1.1], (ask x i w s).1.2), (ask x i w s).2) := rfl

theorem snd_dialogue_singleton (ask : σ → ι → Run (α × σ)) (x : σ) (w : Surroundings) (i : ι)
    (s : ProcessState) : (dialogue ask x [(w, i)] s).2 = (ask x i w s).2 := rfl

/-- What holds at the start and is kept by each of the things that are done holds in the end. -/
theorem course_keeps {act : σ → ι → Run σ} {P : σ → Prop} {moments : List (Surroundings × ι)}
    (hkeeps : ∀ w i, (w, i) ∈ moments → ∀ x s, P x → P (act x i w s).1) {x : σ}
    (h : P x) (s : ProcessState) : P (course act x moments s).1 := by
  induction moments generalizing x s with
  | nil => exact h
  | cons moment moments ih =>
    obtain ⟨w, i⟩ := moment
    have hfirst : P (act x i w s).1 := hkeeps w i List.mem_cons_self x s h
    have hrest : ∀ w i, (w, i) ∈ moments → ∀ x s, P x → P (act x i w s).1 :=
      fun w i hmem => hkeeps w i (List.mem_cons_of_mem _ hmem)
    exact ih hrest hfirst (act x i w s).2

/-- What holds at the start and is kept by each of the questions holds in the end. -/
theorem dialogue_keeps {ask : σ → ι → Run (α × σ)} {P : σ → Prop}
    {moments : List (Surroundings × ι)}
    (hkeeps : ∀ w i, (w, i) ∈ moments → ∀ x s, P x → P (ask x i w s).1.2) {x : σ}
    (h : P x) (s : ProcessState) : P (dialogue ask x moments s).1.2 := by
  induction moments generalizing x s with
  | nil => exact h
  | cons moment moments ih =>
    obtain ⟨w, i⟩ := moment
    have hfirst : P (ask x i w s).1.2 := hkeeps w i List.mem_cons_self x s h
    have hrest : ∀ w i, (w, i) ∈ moments → ∀ x s, P x → P (ask x i w s).1.2 :=
      fun w i hmem => hkeeps w i (List.mem_cons_of_mem _ hmem)
    exact ih hrest hfirst (ask x i w s).2

/-- What ties a state to what was noted so far, and is kept by each of the things that are done,
ties the state in the end to all that was noted. -/
theorem course_notes_keeps {act : σ → ι → Run σ}
    {note : σ → Surroundings → ProcessState → ι → List α} {P : List α → σ → Prop}
    (hkeeps : ∀ noted x, P noted x → ∀ w s i, P (noted ++ note x w s i) (act x i w s).1)
    (moments : List (Surroundings × ι)) {noted : List α} {x : σ} (h : P noted x)
    (s : ProcessState) :
    P (noted ++ notes act note x moments s) (course act x moments s).1 := by
  induction moments generalizing noted x s with
  | nil =>
    rw [notes, List.append_nil]
    exact h
  | cons moment moments ih =>
    obtain ⟨w, i⟩ := moment
    have hfirst : P (noted ++ note x w s i) (act x i w s).1 := hkeeps noted x h w s i
    have hrest := ih hfirst (act x i w s).2
    rw [List.append_assoc] at hrest
    exact hrest

end BearerAuth.Run

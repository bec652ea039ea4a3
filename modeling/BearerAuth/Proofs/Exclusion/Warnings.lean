import BearerAuth.Exclusion.Warnings
import BearerAuth.Proofs.Recency.Order
import BearerAuth.Proofs.Surroundings.Course

namespace BearerAuth.ExclusionWarnings

open RecencyMap

/-- The warning about a path. -/
def warning (path : String) : Event where
  level := .warn
  area := .exclusion
  message := s!"Request to path {path} is excluded from JWT Authentication filtering " ++
    "by filter configuration"
  fields := [("path", path)]

/-- The ten different paths that were given last, the latest first. -/
def latest (given : List (Surroundings × String)) : List String :=
  ((given.map Prod.snd).reverse.eraseDups).take 10

theorem warnOnce_apply (w : ExclusionWarnings) (path : String) (x : Surroundings)
    (s : ProcessState) :
    w.warnOnce path x s = (w.next x.instant path,
      { s with
        events := s.events ++ if (w.next x.instant path).1 then [warning path] else [] }) := by
  have hrun : w.warnOnce path x s =
      (if (w.next x.instant path).1 then
        (do Run.report (warning path); return w.next x.instant path : Run _)
      else pure (w.next x.instant path)) x s := rfl
  rw [hrun]
  by_cases hdue : (w.next x.instant path).1 = true
  · rw [if_pos hdue, if_pos hdue]
    rfl
  · rw [if_neg hdue, if_neg hdue, List.append_nil]
    rfl

/-- Either a path was warned about within the interval, and that is all that is remembered of it
still, or it is warned about now. -/
theorem next_cases {w : ExclusionWarnings} (h : w.recent.WellFormed) (instant : Duration)
    (path : String) :
    (∃ warned, w.recent.peek? path = some warned ∧ instant - warned < w.interval ∧
      w.next instant path = (false, { w with recent := w.recent.put path warned })) ∨
    ((∀ warned, w.recent.peek? path = some warned → w.interval ≤ instant - warned) ∧
      w.next instant path = (true, { w with recent := w.recent.put path instant })) := by
  unfold next
  cases hpeek : w.recent.peek? path with
  | none =>
    rw [get_of_peek?_eq_none w.recent hpeek]
    exact Or.inr ⟨nofun, rfl⟩
  | some warned =>
    rw [get_eq_put h hpeek]
    dsimp only
    by_cases hfresh : instant - warned < w.interval
    · rw [if_pos hfresh]
      exact Or.inl ⟨warned, rfl, hfresh, rfl⟩
    · -- the entry is moved to the front before it is written anew
      rw [if_neg hfresh, put_put]
      refine Or.inr ⟨?_, rfl⟩
      rintro _ ⟨⟩
      exact Nat.le_of_not_lt hfresh

/-- What ties the memory to the paths that were given: the ten latest of them are remembered, each
with the instant of a moment at which some path was given. -/
structure Remembers (given : List (Surroundings × String)) (w : ExclusionWarnings) : Prop where
  wellFormed : w.recent.WellFormed
  keys : w.recent.keys = latest given
  warned : ∀ path warned, w.recent.peek? path = some warned →
    ∃ moment ∈ given, moment.1.instant = warned

variable {given : List (Surroundings × String)} {w : ExclusionWarnings}

theorem latest_eq_take_recent (given : List (Surroundings × String)) :
    latest given = (RecencyMap.recent (given.map Prod.snd)).take 10 := by
  unfold latest
  rw [recent_eq_eraseDups]

theorem latest_concat (given : List (Surroundings × String)) (x : Surroundings) (path : String) :
    latest (given ++ [(x, path)]) = (moveToFront (latest given) path).take 10 := by
  rw [latest_eq_take_recent, latest_eq_take_recent, List.map_append, List.map_singleton,
    recent_concat, take_moveToFront_take (nodup_recent _)]

theorem remembers_nothing (interval : Duration) : Remembers [] { interval } where
  wellFormed := wellFormed_empty
  keys := rfl
  warned := nofun

/-- Whatever is remembered of a path when it is given, it comes to the front. -/
theorem Remembers.put (h : Remembers given w) {x : Surroundings} {path : String}
    {warned : Duration}
    (hwarned : ∃ moment ∈ given ++ [(x, path)], moment.1.instant = warned) :
    Remembers (given ++ [(x, path)]) { w with recent := w.recent.put path warned } where
  wellFormed := h.wellFormed.put path warned
  keys := by
    rw [latest_concat, ← h.keys]
    exact keys_put ..
  warned other instant hpeek := by
    rcases peek?_of_put w.recent hpeek with ⟨-, rfl⟩ | ⟨-, hbefore⟩
    · exact hwarned
    · obtain ⟨moment, hmem, hinstant⟩ := h.warned other instant hbefore
      exact ⟨moment, List.mem_append_left _ hmem, hinstant⟩

theorem Remembers.next (h : Remembers given w) (x : Surroundings) (path : String) :
    Remembers (given ++ [(x, path)]) (w.next x.instant path).2 := by
  rcases next_cases h.wellFormed x.instant path with ⟨warned, hpeek, -, hnext⟩ | ⟨-, hnext⟩
  · rw [hnext]
    apply h.put
    obtain ⟨moment, hmem, hinstant⟩ := h.warned path warned hpeek
    exact ⟨moment, List.mem_append_left _ hmem, hinstant⟩
  · rw [hnext]
    exact h.put ⟨(x, path), List.mem_append_right _ List.mem_cons_self, rfl⟩

/-- The invariant is kept by a run of any length. -/
theorem Remembers.dialogue (h : Remembers given w) (more : List (Surroundings × String))
    (s : ProcessState) : Remembers (given ++ more) (Run.dialogue warnOnce w more s).1.2 := by
  induction more generalizing given w s with
  | nil =>
    rw [List.append_nil]
    exact h
  | cons moment more ih =>
    obtain ⟨x, path⟩ := moment
    have hfirst : Remembers (given ++ [(x, path)]) (w.warnOnce path x s).1.2 := by
      rw [warnOnce_apply]
      exact h.next x path
    have hrest := ih hfirst (w.warnOnce path x s).2
    rw [List.append_assoc] at hrest
    exact hrest

theorem interval_next (w : ExclusionWarnings) (instant : Duration) (path : String) :
    (w.next instant path).2.interval = w.interval := by
  unfold next
  split
  · split <;> rfl
  · rfl

theorem interval_dialogue (w : ExclusionWarnings) (given : List (Surroundings × String))
    (s : ProcessState) : (Run.dialogue warnOnce w given s).1.2.interval = w.interval := by
  have hkeeps : ∀ x path, (x, path) ∈ given → ∀ w' s', w'.interval = w.interval →
      (warnOnce w' path x s').1.2.interval = w.interval := by
    intro x path _ w' s' hkept
    rw [warnOnce_apply]
    exact (interval_next w' x.instant path).trans hkept
  exact Run.dialogue_keeps hkeeps rfl s

/-- As long as no warning is older than the interval, a path is warned about exactly when it is not
remembered. -/
theorem Remembers.due_iff (h : Remembers given w) {x : Surroundings}
    (hlasts : ∀ moment ∈ given, x.instant - moment.1.instant < w.interval) (path : String) :
    (w.next x.instant path).1 = true ↔ path ∉ latest given := by
  rw [← h.keys, mem_keys_iff]
  rcases next_cases h.wellFormed x.instant path with ⟨warned, hpeek, -, hnext⟩ | ⟨hold, hnext⟩
  · rw [hnext]
    exact iff_of_false Bool.false_ne_true fun hunknown => hunknown ⟨warned, hpeek⟩
  · rw [hnext]
    refine iff_of_true rfl ?_
    rintro ⟨warned, hpeek⟩
    obtain ⟨moment, hmem, rfl⟩ := h.warned path warned hpeek
    exact absurd (hlasts moment hmem) (Nat.not_lt_of_le (hold _ hpeek))

theorem due_of_interval_eq_zero (h : w.interval = 0) (instant : Duration) (path : String) :
    (w.next instant path).1 = true := by
  unfold next
  split
  · rw [h, if_neg (Nat.not_lt_zero _)]
  · rfl

/-- However often paths were given, the ten latest of them are remembered and no others. A path is
warned about exactly when the answer is that it was; within the interval that is when it is not
among these, and always if the interval is zero. -/
theorem warns_unless_latest (interval : Duration) (given : List (Surroundings × String))
    (s : ProcessState) :
    let run := Run.dialogue warnOnce { interval } given s
    run.1.2.recent.keys = latest given ∧ run.1.2.recent.entries.length ≤ 10 ∧
      ∀ (x : Surroundings) (path : String),
        let call := run.1.2.warnOnce path x run.2
        call.2.events = run.2.events ++ (if call.1.1 then [warning path] else []) ∧
        ((∀ moment ∈ given, x.instant - moment.1.instant < interval) →
          (call.1.1 = true ↔ path ∉ latest given)) ∧
        (interval = 0 → call.1.1 = true) := by
  intro run
  have hremembers : Remembers given run.1.2 := (remembers_nothing interval).dialogue given s
  have hinterval : run.1.2.interval = interval := interval_dialogue { interval } given s
  refine ⟨hremembers.keys, hremembers.wellFormed.bounded, fun x path => ?_⟩
  intro call
  have hcall : call = _ := warnOnce_apply run.1.2 path x run.2
  rw [hcall]
  refine ⟨rfl, fun hlasts => ?_, fun hzero => ?_⟩
  · rw [← hinterval] at hlasts
    exact hremembers.due_iff hlasts path
  · rw [← hinterval] at hzero
    exact due_of_interval_eq_zero hzero x.instant path

/-- So many seconds after some start. -/
def second (n : Nat) : Surroundings := ⟨0, .ofSeconds n, {}, [], fun _ => .unreachable, {}⟩

/-- A path each second: ten different ones, the first of them again, and one more. -/
def visits : List (Surroundings × String) :=
  ["/a", "/b", "/c", "/d", "/e", "/f", "/g", "/h", "/i", "/j", "/a", "/k"].zipIdx.map
    fun (path, n) => (second n, path)

/-- The path that was given twice is remembered still, although nothing was reported of it the
second time. The one after it had to give way. -/
theorem warns_unless_latest_visits :
    let run := Run.dialogue warnOnce {} visits {}
    (run.1.2.warnOnce "/a" (second 12) run.2).1.1 = false ∧
      (run.1.2.warnOnce "/b" (second 12) run.2).1.1 = true ∧
      (run.1.2.warnOnce "/b" (second 12) run.2).2.events = run.2.events ++ [warning "/b"] := by
  intro run
  have hlasts : ∀ moment ∈ visits, (second 12).instant - moment.1.instant < .ofMinutes 15 := by
    decide
  obtain ⟨-, -, hcalls⟩ := warns_unless_latest (.ofMinutes 15) visits {}
  have hfirst := (hcalls (second 12) "/a").2.1 hlasts
  have hsecond := ((hcalls (second 12) "/b").2.1 hlasts).mpr (by decide)
  have hevents := (hcalls (second 12) "/b").1
  rw [if_pos hsecond] at hevents
  exact ⟨Bool.eq_false_iff.mpr fun hdue => hfirst.mp hdue (by decide), hsecond, hevents⟩

end BearerAuth.ExclusionWarnings

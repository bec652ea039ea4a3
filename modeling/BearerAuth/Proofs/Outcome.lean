import BearerAuth.Attempt

/-!
When steps that may fail give a value, and which errors they can give. With these a function
written as a sequence of steps is opened once, in the lemma that says when it succeeds or what it
fails with.
-/

namespace BearerAuth.Outcome

variable {ε ε' α β : Type}

theorem bind_eq_ok_iff (x : Except ε α) (f : α → Except ε β) (b : β) :
    (x >>= f) = .ok b ↔ ∃ a, x = .ok a ∧ f a = .ok b := by
  cases x with
  | error e => exact ⟨nofun, fun ⟨_, h, _⟩ => nomatch h⟩
  | ok a => exact ⟨fun h => ⟨a, rfl, h⟩, fun ⟨_, h, hf⟩ => Except.ok.inj h ▸ hf⟩

theorem mapError_eq_ok_iff (f : ε → ε') (x : Except ε α) (a : α) :
    x.mapError f = .ok a ↔ x = .ok a := by
  cases x with
  | error e => exact ⟨nofun, nofun⟩
  | ok b => exact ⟨fun h => congrArg _ (Except.ok.inj h), fun h => congrArg _ (Except.ok.inj h)⟩

/-- A step taken for each item of a list gives values exactly when every item may pass; the values
are then those that the items stand for. -/
theorem mapM_eq_ok_iff {f : α → Except ε β} {passes : α → Prop} {value : α → β} {items : List α}
    (h : ∀ a ∈ items, ∀ b, f a = .ok b ↔ passes a ∧ b = value a) (values : List β) :
    items.mapM f = .ok values ↔ (∀ a ∈ items, passes a) ∧ values = items.map value := by
  induction items generalizing values with
  | nil => simp [pure, Except.pure, eq_comm]
  | cons a items ih =>
    obtain ⟨ha, hitems⟩ := List.forall_mem_cons.mp h
    rw [List.mapM_cons, bind_eq_ok_iff, List.forall_mem_cons, List.map_cons]
    constructor
    · rintro ⟨b, hb, hrest⟩
      obtain ⟨others, hothers, hvalues⟩ := (bind_eq_ok_iff _ _ _).mp hrest
      obtain ⟨hpass, rfl⟩ := (ha b).mp hb
      obtain ⟨hpasses, rfl⟩ := (ih hitems others).mp hothers
      cases hvalues
      exact ⟨⟨hpass, hpasses⟩, rfl⟩
    · rintro ⟨⟨hpass, hpasses⟩, rfl⟩
      have hhead : f a = .ok (value a) := (ha _).mpr ⟨hpass, rfl⟩
      have htail : items.mapM f = .ok (items.map value) := (ih hitems _).mpr ⟨hpasses, rfl⟩
      exact ⟨_, hhead, (bind_eq_ok_iff _ _ _).mpr ⟨_, htail, rfl⟩⟩

/-- Makes checks in order, each with the error that it gives when something is wrong. -/
def firstFault : List (Bool × ε) → Except ε Unit
  | [] => .ok ()
  | (wrong, e) :: rest => if wrong then .error e else firstFault rest

/-- All checks pass exactly when nothing is wrong at any of them. -/
theorem firstFault_eq_ok_iff (checks : List (Bool × ε)) (u : Unit) :
    firstFault checks = .ok u ↔ ∀ check ∈ checks, check.1 = false := by
  -- the first check decides unless it finds nothing
  induction checks with
  | nil => exact iff_of_true rfl (fun _ h => absurd h List.not_mem_nil)
  | cons check rest ih =>
    obtain ⟨wrong, e⟩ := check
    rw [List.forall_mem_cons, firstFault]
    cases wrong with
    | true => exact ⟨nofun, fun h => nomatch h.1⟩
    | false => exact ih.trans ⟨fun h => ⟨rfl, h⟩, fun h => h.2⟩

theorem firstFault_cons_of_false {wrong : Bool} (e : ε) (rest : List (Bool × ε))
    (h : wrong = false) : firstFault ((wrong, e) :: rest) = firstFault rest := by
  rw [firstFault, h]
  rfl

theorem firstFault_append (first rest : List (Bool × ε)) :
    firstFault (first ++ rest) = firstFault first >>= fun _ => firstFault rest := by
  induction first with
  | nil => rfl
  | cons check first ih =>
    obtain ⟨wrong, e⟩ := check
    rw [List.cons_append, firstFault, firstFault]
    cases wrong with
    | true => rfl
    | false => exact ih

/-- Whatever error a computation gives, it is one of some errors. -/
def FailsIn (P : ε → Prop) (x : Except ε α) : Prop := ∀ e, x = .error e → P e

variable {P : ε → Prop}

theorem FailsIn.ok (a : α) : FailsIn P (.ok a : Except ε α) := nofun

theorem FailsIn.error {e : ε} (h : P e) : FailsIn P (.error e : Except ε α) := by
  rintro _ ⟨⟩
  exact h

theorem FailsIn.bind {x : Except ε α} {f : α → Except ε β} (hx : FailsIn P x)
    (hf : ∀ a, FailsIn P (f a)) : FailsIn P (x >>= f) := by
  intro e he
  cases h : x with
  | error e' =>
    rw [h] at he
    cases he
    exact hx e h
  | ok a =>
    rw [h] at he
    exact hf a e he

theorem FailsIn.mapError {f : ε' → ε} (h : ∀ e, P (f e)) (x : Except ε' α) :
    FailsIn P (x.mapError f) := by
  intro e he
  cases x with
  | error e' =>
    cases he
    exact h e'
  | ok a => exact nomatch he

theorem FailsIn.firstFault {checks : List (Bool × ε)} (h : ∀ check ∈ checks, P check.2) :
    FailsIn P (firstFault checks) := by
  induction checks with
  | nil => exact .ok ()
  | cons check rest ih =>
    obtain ⟨wrong, e⟩ := check
    rw [List.forall_mem_cons] at h
    cases wrong with
    | true => exact .error h.1
    | false => exact ih h.2

end BearerAuth.Outcome

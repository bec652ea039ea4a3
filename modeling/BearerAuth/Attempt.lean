/-!
Computations that may give a value, give up with an error, or panic. An error is an answer that
callers handle; a panic unwinds past them all until something catches it.
-/

namespace BearerAuth

/-- What a panic carries: a text, or something that cannot be shown. -/
inductive Panic where
  | text (s : String)
  | other
deriving DecidableEq, Repr

def Panic.message : Panic → String
  | .text s => s
  | .other => "unknown"

/-- A value, an error or a panic. -/
inductive Attempt (ε α : Type) where
  | ok (a : α)
  | error (e : ε)
  | panic (p : Panic)
deriving DecidableEq, Repr

namespace Attempt

variable {ε ε' α β : Type}

def bind (x : Attempt ε α) (f : α → Attempt ε β) : Attempt ε β :=
  match x with
  | .ok a => f a
  | .error e => .error e
  | .panic p => .panic p

instance : Monad (Attempt ε) where
  pure := .ok
  bind := bind

def mapError (f : ε → ε') : Attempt ε α → Attempt ε' α
  | .ok a => .ok a
  | .error e => .error (f e)
  | .panic p => .panic p

def ofExcept : Except ε α → Attempt ε α
  | .ok a => .ok a
  | .error e => .error e

@[simp] theorem bind_ok (a : α) (f : α → Attempt ε β) : (Attempt.ok a >>= f) = f a := rfl

@[simp] theorem bind_error (e : ε) (f : α → Attempt ε β) : (Attempt.error e >>= f) = .error e := rfl

@[simp] theorem bind_panic (p : Panic) (f : α → Attempt ε β) :
    (Attempt.panic p >>= f) = .panic p := rfl

@[simp] theorem pure_eq (a : α) : (pure a : Attempt ε α) = .ok a := rfl

/-- A sequence gives a value exactly when both of its parts do. -/
theorem bind_eq_ok_iff (x : Attempt ε α) (f : α → Attempt ε β) (b : β) :
    (x >>= f) = .ok b ↔ ∃ a, x = .ok a ∧ f a = .ok b := by
  cases x <;> simp

/-- A sequence gives up exactly when its first part does, or its second after a value of the
first. -/
theorem bind_eq_error_iff (x : Attempt ε α) (f : α → Attempt ε β) (e : ε) :
    (x >>= f) = .error e ↔ x = .error e ∨ ∃ a, x = .ok a ∧ f a = .error e := by
  cases x <;> simp

theorem bind_eq_panic_iff (x : Attempt ε α) (f : α → Attempt ε β) (p : Panic) :
    (x >>= f) = .panic p ↔ x = .panic p ∨ ∃ a, x = .ok a ∧ f a = .panic p := by
  cases x <;> simp

theorem mapError_eq_error_iff (f : ε → ε') (x : Attempt ε α) (e : ε') :
    x.mapError f = .error e ↔ ∃ e', x = .error e' ∧ f e' = e := by
  cases x <;> simp [mapError]

theorem ofExcept_eq_error_iff (x : Except ε α) (e : ε) : ofExcept x = .error e ↔ x = .error e := by
  cases x <;> simp [ofExcept]

theorem mapError_eq_ok_iff (f : ε → ε') (x : Attempt ε α) (a : α) :
    x.mapError f = .ok a ↔ x = .ok a := by
  cases x <;> simp [mapError]

theorem ofExcept_eq_ok_iff (x : Except ε α) (a : α) : ofExcept x = .ok a ↔ x = .ok a := by
  cases x <;> simp [ofExcept]

end Attempt

end BearerAuth

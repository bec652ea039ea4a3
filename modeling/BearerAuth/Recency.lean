namespace BearerAuth

/-- A map of at most `capacity` entries, the most recently used first. -/
structure RecencyMap (capacity : Nat) (α : Type) where
  entries : List (String × α) := []
deriving DecidableEq, Repr

namespace RecencyMap

variable {capacity : Nat} {α : Type}

/-- The keys, the most recently used first. -/
def keys (m : RecencyMap capacity α) : List String := m.entries.map Prod.fst

/-- The value of a key; nothing is used by looking. -/
def peek? (m : RecencyMap capacity α) (key : String) : Option α := m.entries.lookup key

def erase (m : RecencyMap capacity α) (key : String) : RecencyMap capacity α :=
  ⟨m.entries.filter (·.1 != key)⟩

def put (m : RecencyMap capacity α) (key : String) (value : α) : RecencyMap capacity α :=
  ⟨((key, value) :: (m.erase key).entries).take capacity⟩

def get (m : RecencyMap capacity α) (key : String) : Option α × RecencyMap capacity α :=
  match m.peek? key with
  | some value => (some value, ⟨(key, value) :: (m.erase key).entries⟩)
  | none => (none, m)

def putAll (m : RecencyMap capacity α) (entries : List (String × α)) : RecencyMap capacity α :=
  entries.foldl (fun m e => m.put e.1 e.2) m

@[simp] theorem peek?_put_self (m : RecencyMap (capacity + 1) α) (key : String) (value : α) :
    (m.put key value).peek? key = some value := by
  simp [put, peek?]

theorem length_put_le (m : RecencyMap capacity α) (key : String) (value : α) :
    (m.put key value).entries.length ≤ capacity := by
  simp only [put, List.length_take]
  exact Nat.min_le_left ..

@[simp] theorem fst_get (m : RecencyMap capacity α) (key : String) :
    (m.get key).1 = m.peek? key := by
  unfold get
  split <;> simp_all

end RecencyMap

end BearerAuth

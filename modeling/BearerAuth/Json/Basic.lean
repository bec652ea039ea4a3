import BearerAuth.Decimal.Binary64

/-!
JSON values. A number is an integer where it was written as one and fits 64 bits, and a binary
number otherwise. A parsed document keeps its members in the order of the text, repeated names
included; its canonical form has them sorted by name, the last of a repeated name standing.
-/

namespace BearerAuth

/-- A JSON number. -/
inductive Json.Number where
  | int (i : Int)
  | double (x : Binary64)
deriving DecidableEq, Repr

/-- A JSON value. -/
inductive Json where
  | null
  | bool (b : Bool)
  | number (n : Json.Number)
  | string (s : String)
  | array (items : List Json)
  | object (members : List (String × Json))
deriving Repr, Inhabited

namespace Json

abbrev Members := List (String × Json)

mutual

def same : Json → Json → Bool
  | .null, .null => true
  | .bool a, .bool b => a == b
  | .number a, .number b => a == b
  | .string a, .string b => a == b
  | .array a, .array b => sameItems a b
  | .object a, .object b => sameMembers a b
  | _, _ => false

def sameItems : List Json → List Json → Bool
  | [], [] => true
  | v :: vs, w :: ws => same v w && sameItems vs ws
  | _, _ => false

/-- Whether two objects have the same members in the same order. -/
def sameMembers : List (String × Json) → List (String × Json) → Bool
  | [], [] => true
  | (m, v) :: vs, (n, w) :: ws => m == n && same v w && sameMembers vs ws
  | _, _ => false

end

mutual

theorem same_iff : (v w : Json) → (same v w = true ↔ v = w)
  | .null, w | .bool _, w | .number _, w | .string _, w => by cases w <;> simp [same]
  | .array vs, w => by cases w <;> simp [same, sameItems_iff vs]
  | .object vs, w => by cases w <;> simp [same, sameMembers_iff vs]

theorem sameItems_iff : (vs ws : List Json) → (sameItems vs ws = true ↔ vs = ws)
  | [], ws => by cases ws <;> simp [sameItems]
  | v :: vs, ws => by cases ws <;> simp [sameItems, same_iff v, sameItems_iff vs]

theorem sameMembers_iff : (vs ws : List (String × Json)) → (sameMembers vs ws = true ↔ vs = ws)
  | [], ws => by cases ws <;> simp [sameMembers]
  | (n, v) :: vs, ws => by
    cases ws <;> simp [sameMembers, same_iff v, sameMembers_iff vs, Prod.ext_iff, and_assoc]

end

instance : DecidableEq Json := fun v w => decidable_of_iff _ (same_iff v w)

def Members.get? (members : Members) (name : String) : Option Json := members.lookup name

/-- Puts a member at its place in the order of names, in the stead of one of the same name. -/
def Members.insert (members : Members) (name : String) (value : Json) : Members :=
  match members with
  | [] => [(name, value)]
  | (n, v) :: rest =>
    if name < n then (name, value) :: (n, v) :: rest
    else if name = n then (name, value) :: rest
    else (n, v) :: Members.insert rest name value

/-- Members in order of their names, the last of a repeated name standing. -/
def Members.sorted (members : Members) : Members :=
  members.foldl (fun acc m => Members.insert acc m.1 m.2) []

mutual

/-- The value with the members of every object in order. -/
def canonical : Json → Json
  | .array items => .array (canonicalItems items)
  | .object members => .object (Members.sorted (canonicalMembers members))
  | .null => .null
  | .bool b => .bool b
  | .number n => .number n
  | .string s => .string s

def canonicalItems : List Json → List Json
  | [] => []
  | v :: rest => canonical v :: canonicalItems rest

/-- The members of an object with their values in canonical form. -/
def canonicalMembers : List (String × Json) → List (String × Json)
  | [] => []
  | (n, v) :: rest => (n, canonical v) :: canonicalMembers rest

end

def string? : Json → Option String
  | .string s => some s
  | _ => none

def object? : Json → Option Members
  | .object members => some members
  | _ => none

def array? : Json → Option (List Json)
  | .array items => some items
  | _ => none

def bool? : Json → Option Bool
  | .bool b => some b
  | _ => none

def member? (v : Json) (name : String) : Option Json :=
  match v with
  | .object members => Members.get? members name
  | _ => none

def Number.toDouble? : Number → Option Binary64
  | .int i => Binary64.ofInt i
  | .double x => some x

end Json

end BearerAuth

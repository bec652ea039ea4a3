import BearerAuth.Toml.Reader

/-!
Configuration documents. The statements of a document put values into tables: a heading opens a
table, and a key with dots goes through tables that it makes. A table is opened once at most, and no
value is put in the place of another.
-/

namespace BearerAuth.Toml

/-- How a table came about: it was named on the way to another one, made by a key with dots, or
opened by a heading. -/
inductive Origin where
  | passed
  | dotted
  | opened
deriving DecidableEq, Repr

/-- A place in a document that is being read: a finished value, a table, or tables under one
heading, the last one first. -/
inductive Node where
  | value (v : Toml)
  | table (origin : Origin) (entries : List (String × Node))
  | tables (last : List (String × Node)) (earlier : List (List (String × Node)))

abbrev Entries := List (String × Node)

namespace Entries

/-- Puts an entry at its place in the order of keys, in the stead of one of the same key. -/
def set (entries : Entries) (key : String) (node : Node) : Entries :=
  match entries with
  | [] => [(key, node)]
  | (k, n) :: rest =>
    if key < k then (key, node) :: (k, n) :: rest
    else if key = k then (key, node) :: rest
    else (k, n) :: set rest key node

def add (entries : Entries) (key : String) (node : Node) : Option Entries :=
  match entries.lookup key with
  | some _ => none
  | none => some (set entries key node)

/-- Changes the table that headings lead to, making the tables on the way. -/
def change (f : Entries → Option Entries) : List String → Entries → Option Entries
  | [], entries => f entries
  | key :: rest, entries =>
    match entries.lookup key with
    | none => (change f rest []).map fun es => set entries key (.table .passed es)
    | some (.table origin es) =>
      (change f rest es).map fun es => set entries key (.table origin es)
    | some (.tables last earlier) =>
      (change f rest last).map fun es => set entries key (.tables es earlier)
    | some (.value _) => none

def openTable (key : String) (entries : Entries) : Option Entries :=
  match entries.lookup key with
  | none => some (set entries key (.table .opened []))
  | some (.table .passed es) => some (set entries key (.table .opened es))
  | _ => none

def openNext (key : String) (entries : Entries) : Option Entries :=
  match entries.lookup key with
  | none => some (set entries key (.tables [] []))
  | some (.tables last earlier) => some (set entries key (.tables [] (last :: earlier)))
  | _ => none

def assign (v : Toml) : List String → Entries → Option Entries
  | [], _ => none
  | [key], entries => add entries key (.value v)
  | key :: next :: rest, entries =>
    match entries.lookup key with
    | none => (assign v (next :: rest) []).map fun es => set entries key (.table .dotted es)
    | some (.table .dotted es) =>
      (assign v (next :: rest) es).map fun es => set entries key (.table .dotted es)
    | some (.table .passed es) =>
      if rest.isEmpty then none
      else (assign v (next :: rest) es).map fun es => set entries key (.table .passed es)
    | _ => none

end Entries

mutual

def Node.toml : Node → Toml
  | .value v => v
  | .table _ entries => .table (entriesToml entries)
  | .tables last earlier => .array ((.table (entriesToml last) :: tablesToml earlier).reverse)

def entriesToml : List (String × Node) → List (String × Toml)
  | [] => []
  | (key, node) :: rest => (key, node.toml) :: entriesToml rest

def tablesToml : List (List (String × Node)) → List Toml
  | [] => []
  | es :: rest => .table (entriesToml es) :: tablesToml rest

end

/-- Reads a key, an equals sign and a value. -/
def readAssignment (value : Reader Toml) : Reader (List String × Toml) := fun s => do
  let (key, r) ← readKey s
  match skipBlanks r with
  | '=' :: r =>
    let (v, r) ← value (skipBlanks r)
    return ((key, v), r)
  | _ => none

/-- Reads a value; arrays and tables in braces nest as deep as the first argument says. -/
def readValue : Nat → Reader Toml
  | depth, s =>
    match s with
    | '"' :: _ => (readString s).map fun (cs, r) => (.string (String.ofList cs), r)
    | '[' :: r =>
      match depth with
      | 0 => none
      | depth + 1 => (readItems ']' (readValue depth) r).map fun (items, r) => (.array items, r)
    | '\x7b' :: r =>
      match depth with
      | 0 => none
      | depth + 1 => do
        let (assignments, r) ← readItems '\x7d' (readAssignment (readValue depth)) r
        let entries ← assignments.foldlM (fun es (key, v) => Entries.assign v key es) []
        return (.table (entriesToml entries), r)
    | c :: _ =>
      if c == '\x27' then (readString s).map fun (cs, r) => (.string (String.ofList cs), r)
      else
        let (word, r) := readWord s
        (word? word).map fun v => (v, r)
    | [] => none

def maxDepth : Nat := 80

/-- A document as far as it is read: its tables, and the way to the one that is open. -/
structure Draft where
  root : Entries := []
  heading : List String := []

def Draft.openTable (d : Draft) (f : String → Entries → Option Entries) (key : List String) :
    Option Draft := do
  let root ← Entries.change (f (← key.getLast?)) key.dropLast d.root
  return ⟨root, key⟩

def Draft.assign (d : Draft) (key : List String) (v : Toml) : Option Draft :=
  (Entries.change (Entries.assign v key) d.heading d.root).map fun root => { d with root }

def readStatement (d : Draft) (s : List Char) : Option (Draft × List Char) :=
  match s with
  | '[' :: '[' :: r => do
    let (key, r) ← readKey (skipBlanks r)
    match skipBlanks r with
    | ']' :: ']' :: r => return (← d.openTable Entries.openNext key, r)
    | _ => none
  | '[' :: r => do
    let (key, r) ← readKey (skipBlanks r)
    match skipBlanks r with
    | ']' :: r => return (← d.openTable Entries.openTable key, r)
    | _ => none
  | s => do
    let ((key, v), r) ← readAssignment (readValue maxDepth) s
    return (← d.assign key v, r)

/-- Reads the statements of a document, each on a line of its own. -/
def readStatements (d : Draft) (s : List Char) : Option Draft :=
  match skipLines s with
  | [] => some d
  | c :: r => do
    let (d, r) ← readStatement d (c :: r)
    match skipComment (skipBlanks r) with
    | [] => return d
    | r =>
      let t ← lineEnd? r
      if t.length < s.length then readStatements d t else none
termination_by s.length

def document? (text : String) : Option (List (String × Toml)) :=
  let cs := match text.toList with
    | '\ufeff' :: rest => rest
    | cs => cs
  (readStatements {} cs).map fun d => entriesToml d.root

end BearerAuth.Toml

import BearerAuth.Toml.Document

namespace BearerAuth.Toml

/-- The keys of a table stand in their order, and so do those of the tables that it leads to. -/
inductive Ordered : Toml → Prop
  | leaf {v : Toml} (h : v.isTable = false) : Ordered v
  | table {entries : List (String × Toml)} (keys : (entries.map Prod.fst).Pairwise (· < ·))
      (values : ∀ entry ∈ entries, Ordered entry.2) : Ordered (.table entries)

theorem ordered_table_iff {entries : List (String × Toml)} :
    (Toml.table entries).Ordered ↔
      (entries.map Prod.fst).Pairwise (· < ·) ∧ ∀ entry ∈ entries, entry.2.Ordered := by
  refine ⟨fun h => ?_, fun h => .table h.1 h.2⟩
  cases h with
  | leaf h => nomatch h
  | table keys values => exact ⟨keys, values⟩

/-- What there is, if there is anything, has a property. -/
def Yields {α : Type} (P : α → Prop) (x : Option α) : Prop := ∀ a ∈ x, P a

namespace Yields

variable {α β : Type} {P : α → Prop} {Q : β → Prop}

theorem none : Yields P none := nofun

theorem some {a : α} (h : P a) : Yields P (some a) := by
  intro b hb
  obtain rfl := Option.mem_some.mp hb
  exact h

theorem bind {x : Option α} {f : α → Option β} (hx : Yields P x)
    (hf : ∀ a, P a → Yields Q (f a)) : Yields Q (x >>= f) := by
  cases x with
  | none => exact .none
  | some a => exact hf a (hx a rfl)

theorem bind_any {x : Option α} {f : α → Option β} (hf : ∀ a, Yields Q (f a)) :
    Yields Q (x >>= f) :=
  bind (P := fun _ => True) (fun _ _ => trivial) fun a _ => hf a

theorem map {x : Option α} {f : α → β} (hx : Yields P x) (hf : ∀ a, P a → Q (f a)) :
    Yields Q (x.map f) := by
  cases x with
  | none => exact .none
  | some a => exact .some (hf a (hx a rfl))

theorem map_any {x : Option α} {f : α → β} (hf : ∀ a, Q (f a)) : Yields Q (x.map f) :=
  map (P := fun _ => True) (fun _ _ => trivial) fun a _ => hf a

theorem ite {c : Prop} [Decidable c] {x y : Option α} (hx : Yields P x) (hy : Yields P y) :
    Yields P (if c then x else y) := by
  split
  · exact hx
  · exact hy

theorem or {x y : Option α} (hx : Yields P x) (hy : Yields P y) : Yields P (x.or y) := by
  cases x with
  | none => exact hy
  | some a => exact hx

theorem foldlM {f : β → α → Option β} (items : List α) {b : β} (hb : Q b)
    (hf : ∀ b, Q b → ∀ a ∈ items, Yields Q (f b a)) : Yields Q (items.foldlM f b) := by
  induction items generalizing b with
  | nil => exact .some hb
  | cons a items ih =>
    rw [List.foldlM_cons]
    exact (hf b hb a List.mem_cons_self).bind fun b' hb' =>
      ih hb' fun b hb a ha => hf b hb a (List.mem_cons_of_mem _ ha)

end Yields

/-- What a reader reads has a property. -/
def Reader.Reads {α : Type} (reader : Reader α) (P : α → Prop) : Prop :=
  ∀ s, Yields (fun x => P x.1) (reader s)

namespace Entries

/-- The keys of a table that is being read stand in their order. -/
def InOrder (entries : Entries) : Prop := (Toml.table (entriesToml entries)).Ordered

variable {entries : Entries} {key : String} {node : Node}

theorem entriesToml_eq_map (entries : Entries) :
    entriesToml entries = entries.map fun (key, node) => (key, node.toml) := by
  induction entries with
  | nil => rfl
  | cons entry entries ih => rw [entriesToml, ih, List.map_cons]

theorem inOrder_nil : InOrder [] := ordered_table_iff.mpr ⟨.nil, nofun⟩

theorem inOrder_cons :
    InOrder ((key, node) :: entries) ↔
      (∀ entry ∈ entries, key < entry.1) ∧ node.toml.Ordered ∧ entries.InOrder := by
  simp only [InOrder, ordered_table_iff, entriesToml_eq_map, List.map_cons, List.map_map,
    List.pairwise_cons, List.forall_mem_cons, List.forall_mem_map, Function.comp_apply]
  exact ⟨fun ⟨⟨hless, hkeys⟩, hnode, hvalues⟩ => ⟨hless, hnode, hkeys, hvalues⟩,
    fun ⟨hless, hnode, hkeys, hvalues⟩ => ⟨⟨hless, hkeys⟩, hnode, hvalues⟩⟩

theorem InOrder.of_mem (h : entries.InOrder) (hmem : (key, node) ∈ entries) :
    node.toml.Ordered := by
  rw [InOrder, ordered_table_iff, entriesToml_eq_map] at h
  exact h.2 _ (List.mem_map_of_mem hmem)

theorem InOrder.of_lookup (h : entries.InOrder) (hlookup : entries.lookup key = some node) :
    node.toml.Ordered := by
  obtain ⟨before, after, rfl, -⟩ := List.lookup_eq_some_iff.mp hlookup
  exact h.of_mem (List.mem_append_right before List.mem_cons_self)

theorem mem_set {entry : String × Node} (h : entry ∈ set entries key node) :
    entry = (key, node) ∨ entry ∈ entries := by
  fun_induction set entries key node with
  | case1 => exact .inl (List.mem_singleton.mp h)
  | case2 => exact List.mem_cons.mp h
  | case3 => exact (List.mem_cons.mp h).imp_right (List.mem_cons_of_mem _)
  | case4 k n rest hless hsame ih =>
    obtain rfl | h := List.mem_cons.mp h
    · exact .inr List.mem_cons_self
    · exact (ih h).imp_right (List.mem_cons_of_mem _)

/-- An entry that is put in its place keeps the order. -/
theorem InOrder.set (h : entries.InOrder) (hnode : node.toml.Ordered) :
    (entries.set key node).InOrder := by
  fun_induction Entries.set entries key node with
  | case1 => exact inOrder_cons.mpr ⟨nofun, hnode, inOrder_nil⟩
  | case2 k n rest hless =>
    refine inOrder_cons.mpr ⟨fun entry hmem => ?_, hnode, h⟩
    obtain rfl | hmem := List.mem_cons.mp hmem
    · exact hless
    · exact String.lt_trans hless ((inOrder_cons.mp h).1 entry hmem)
  | case3 n rest =>
    obtain ⟨hless, -, hrest⟩ := inOrder_cons.mp h
    exact inOrder_cons.mpr ⟨hless, hnode, hrest⟩
  | case4 k n rest hnotless hne ih =>
    obtain ⟨hless, hn, hrest⟩ := inOrder_cons.mp h
    refine inOrder_cons.mpr ⟨fun entry hmem => ?_, hn, ih hrest⟩
    obtain rfl | hmem := mem_set hmem
    · exact Std.lt_of_le_of_ne (String.not_lt.mp hnotless) (Ne.symm hne)
    · exact hless entry hmem

theorem InOrder.add (h : entries.InOrder) (hnode : node.toml.Ordered) :
    Yields InOrder (entries.add key node) := by
  unfold Entries.add
  split
  · exact .none
  · exact .some (h.set hnode)

theorem InOrder.change {f : Entries → Option Entries}
    (hf : ∀ entries, InOrder entries → Yields InOrder (f entries)) (path : List String)
    (h : entries.InOrder) : Yields InOrder (Entries.change f path entries) := by
  induction path generalizing entries with
  | nil => exact hf entries h
  | cons key rest ih =>
    unfold Entries.change
    split
    · exact (ih inOrder_nil).map fun es hes => h.set hes
    · rename_i origin es hlookup
      exact (ih (h.of_lookup hlookup)).map fun es hes => h.set hes
    -- tables under one heading make an array, and what is in an array does not count
    · exact .map_any fun es => h.set (.leaf rfl)
    · exact .none

theorem InOrder.openTable (h : entries.InOrder) (key : String) :
    Yields InOrder (entries.openTable key) := by
  unfold Entries.openTable
  split
  · exact .some (h.set inOrder_nil)
  · rename_i es hlookup
    have hes : InOrder es := h.of_lookup hlookup
    exact .some (h.set hes)
  · exact .none

theorem InOrder.openNext (h : entries.InOrder) (key : String) :
    Yields InOrder (entries.openNext key) := by
  unfold Entries.openNext
  split
  · exact .some (h.set (.leaf rfl))
  · exact .some (h.set (.leaf rfl))
  · exact .none

theorem InOrder.assign {v : Toml} (hv : v.Ordered) (path : List String) (h : entries.InOrder) :
    Yields InOrder (Entries.assign v path entries) := by
  fun_induction Entries.assign v path entries with
  | case1 => exact .none
  | case2 entries key => exact h.add hv
  | case3 entries key next rest hlookup ih => exact (ih inOrder_nil).map fun es hes => h.set hes
  | case4 entries key next rest es hlookup ih =>
    exact (ih (h.of_lookup hlookup)).map fun es hes => h.set hes
  | case5 => exact .none
  | case6 entries key next rest es hlookup _ ih =>
    exact (ih (h.of_lookup hlookup)).map fun es hes => h.set hes
  | case7 => exact .none

end Entries

theorem ordered_int64? (i : Int) : Yields Ordered (int64? i) := .ite (.some (.leaf rfl)) .none

theorem ordered_integer? (word : List Char) : Yields Ordered (integer? word) := by
  unfold integer?
  split
  · exact .bind_any fun n => ordered_int64? n
  · exact .bind_any fun n => ordered_int64? n
  · exact .bind_any fun n => ordered_int64? n
  · exact .ite .none (.bind_any fun n => ordered_int64? _)

theorem ordered_float? (word : List Char) : Yields Ordered (float? word) := by
  unfold float?
  split
  refine .ite (.some (.leaf rfl)) (.ite (.some (.leaf rfl)) ?_)
  -- whatever the fraction and the exponent are, what they scale is a number
  extract_lets whole digits scaled number
  have hscaled : ∀ x, Yields Ordered (scaled x) := by
    rintro ⟨n, places, r⟩
    unfold scaled
    dsimp only
    split
    · exact .ite (.bind_any fun _ => .map_any fun _ => .leaf rfl)
        (.bind_any fun _ => .map_any fun _ => .leaf rfl)
    · exact .ite (.bind_any fun _ => .map_any fun _ => .leaf rfl)
        (.bind_any fun _ => .map_any fun _ => .leaf rfl)
  have hnumber : ∀ u, Yields Ordered (number u) := by
    intro u
    refine .bind_any fun n => ?_
    clear_value digits
    split
    · exact .bind_any fun _ => .bind_any hscaled
    · exact .bind_any hscaled
  exact .ite (.bind_any hnumber) (hnumber ())

theorem ordered_moment? (word : List Char) : Yields Ordered (moment? word) := by
  unfold moment?
  extract_lets done
  have hdone : ∀ text rest, Yields Ordered (done text rest) := fun _ _ =>
    .ite (.some (.leaf rfl)) .none
  split
  · exact hdone _ _
  · extract_lets timed
    have htimed : ∀ u, Yields Ordered (timed u) := fun _ =>
      .bind_any fun _ => .bind_any fun _ => hdone _ _
    exact .ite (.bind_any htimed) (htimed ())
  · exact .bind_any fun _ => hdone _ _

theorem ordered_word? (word : List Char) : Yields Ordered (word? word) :=
  .ite (.some (.leaf rfl)) (.ite (.some (.leaf rfl))
    ((ordered_integer? word).or ((ordered_float? word).or (ordered_moment? word))))

section Readers

variable {α : Type} {P : α → Prop} {item : Reader α} {value : Reader Toml}

theorem reads_readItems (h : item.Reads P) (close : Char) :
    Reader.Reads (readItems close item) fun items => ∀ x ∈ items, P x := by
  intro s
  fun_induction readItems close item s with
  | case1 => exact .none
  | case2 => exact .some nofun
  | case3 s c r _ _ ih =>
    refine (h _).bind ?_
    rintro ⟨v, r⟩ hv
    dsimp only
    split
    · split
      · rename_i t _ hshorter
        exact (ih t hshorter).bind fun _ hvs => .some (List.forall_mem_cons.mpr ⟨hv, hvs⟩)
      · exact .none
    · exact .ite (.some (List.forall_mem_singleton.mpr hv)) .none
    · exact .none

theorem reads_readAssignment (h : value.Reads Ordered) :
    Reader.Reads (readAssignment value) fun assignment => assignment.2.Ordered := by
  intro s
  unfold readAssignment
  refine .bind_any ?_
  rintro ⟨key, r⟩
  dsimp only
  split
  · exact (h _).bind fun _ hv => .some hv
  · exact .none

end Readers

/-- The entries of a table in braces are put in their places one after the other. -/
theorem Entries.inOrder_foldlM_assign {assignments : List (List String × Toml)}
    (h : ∀ assignment ∈ assignments, assignment.2.Ordered) :
    Yields InOrder
      (assignments.foldlM (fun es (key, v) => assign v key es) []) :=
  .foldlM assignments inOrder_nil fun _ hes (key, _) hmem => hes.assign (h _ hmem) key

theorem reads_readValue (depth : Nat) : Reader.Reads (readValue depth) Ordered := by
  have hword (word : List Char × List Char) :
      Yields (fun x : Toml × List Char => x.1.Ordered) ((word? word.1).map fun v => (v, word.2)) :=
    (ordered_word? word.1).map fun _ hv => hv
  induction depth with
  | zero =>
    intro s
    unfold readValue
    split
    · exact .map_any fun _ => .leaf rfl
    · exact .none
    · exact .none
    · exact .ite (.map_any fun _ => .leaf rfl) (hword _)
    · exact .none
  | succ depth ih =>
    intro s
    unfold readValue
    split
    · exact .map_any fun _ => .leaf rfl
    · exact .map_any fun _ => .leaf rfl
    · refine (reads_readItems (reads_readAssignment ih) _ _).bind fun assignments hvalues => ?_
      exact (Entries.inOrder_foldlM_assign hvalues).bind fun entries hentries => .some hentries
    · exact .ite (.map_any fun _ => .leaf rfl) (hword _)
    · exact .none

variable {d : Draft}

theorem Draft.inOrder_openTable (h : d.root.InOrder) {f : String → Entries → Option Entries}
    (hf : ∀ key entries, entries.InOrder → Yields Entries.InOrder (f key entries))
    (key : List String) : Yields (fun d : Draft => d.root.InOrder) (d.openTable f key) :=
  .bind_any fun last => (h.change (hf last) key.dropLast).bind fun _ hroot => .some hroot

theorem Draft.inOrder_assign (h : d.root.InOrder) {v : Toml} (hv : v.Ordered) (key : List String) :
    Yields (fun d : Draft => d.root.InOrder) (d.assign key v) :=
  (h.change (fun _ hentries => hentries.assign hv key) d.heading).map fun _ hroot => hroot

theorem inOrder_readStatement (h : d.root.InOrder) (s : List Char) :
    Yields (fun x : Draft × List Char => x.1.root.InOrder) (readStatement d s) := by
  unfold readStatement
  split
  · refine .bind_any ?_
    rintro ⟨key, r⟩
    dsimp only
    split
    · exact (d.inOrder_openTable h (fun key _ hentries => hentries.openNext key) key).bind
        fun _ hroot => .some hroot
    · exact .none
  · refine .bind_any ?_
    rintro ⟨key, r⟩
    dsimp only
    split
    · exact (d.inOrder_openTable h (fun key _ hentries => hentries.openTable key) key).bind
        fun _ hroot => .some hroot
    · exact .none
  · refine (reads_readAssignment (reads_readValue maxDepth) _).bind ?_
    rintro ⟨⟨key, v⟩, r⟩ hv
    exact (Draft.inOrder_assign h hv key).bind fun _ hroot => .some hroot

theorem inOrder_readStatements (h : d.root.InOrder) (s : List Char) :
    Yields (fun d : Draft => d.root.InOrder) (readStatements d s) := by
  fun_induction readStatements d s with
  | case1 => exact .some h
  | case2 d s c r _ ih =>
    refine (inOrder_readStatement h _).bind ?_
    rintro ⟨d, r⟩ hd
    dsimp only
    split
    · exact .some hd
    · refine .bind_any fun t => ?_
      split
      · rename_i hshorter
        exact ih d t hshorter hd
      · exact .none

/-- The tables of a document are in order. -/
theorem ordered_document? (text : String) :
    Yields (fun entries => (Toml.table entries).Ordered) (document? text) :=
  (inOrder_readStatements Entries.inOrder_nil _).map fun _ hroot => hroot

end BearerAuth.Toml

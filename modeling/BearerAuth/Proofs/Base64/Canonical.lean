import Mathlib.Data.List.Basic
import BearerAuth.Base64
import BearerAuth.Proofs.Outcome

namespace BearerAuth.Base64

variable {a : Alphabet}

theorem value?_symbol (a : Alphabet) : ∀ v < 64, a.value? (a.symbol v) = some v := by
  cases a <;> decide

theorem symbol_ne_pad (a : Alphabet) : ∀ v < 64, a.symbol v ≠ pad := by
  cases a <;> decide

/-- A symbol of the alphabet is the one that is written for its value. -/
theorem symbol_of_value? {b : UInt8} {v : Nat} (h : a.value? b = some v) :
    v < 64 ∧ a.symbol v = b := by
  -- there are few enough bytes to look at each of them
  have hall : ∀ n < 256, ∀ v ∈ a.value? (UInt8.ofNat n), v < 64 ∧ a.symbol v = UInt8.ofNat n := by
    cases a <;> decide +kernel
  have hb := hall b.toNat b.toNat_lt
  rw [UInt8.ofNat_toNat] at hb
  exact hb v h

theorem values_eq_ok_iff (offset : Nat) (symbols : List UInt8) (values : List Nat) :
    a.values offset symbols = .ok values ↔
      (∀ v ∈ values, v < 64) ∧ values.map a.symbol = symbols := by
  -- the offset only matters to errors, but it grows with each symbol
  induction symbols generalizing offset values with
  | nil =>
    unfold Alphabet.values
    constructor
    · rintro ⟨⟩
      exact ⟨nofun, rfl⟩
    · rintro ⟨-, hnil⟩
      rw [List.map_eq_nil_iff.mp hnil]
  | cons b rest ih =>
    unfold Alphabet.values
    constructor
    · intro h
      split at h
      · exact nomatch h
      · next v hv =>
        obtain ⟨hlt, hsymbol⟩ := symbol_of_value? hv
        cases hrest : a.values (offset + 1) rest with
        | error e => rw [hrest] at h; exact nomatch h
        | ok others =>
          rw [hrest] at h
          obtain rfl := Except.ok.inj h
          obtain ⟨hall, hothers⟩ := (ih (offset + 1) others).mp hrest
          rw [List.map_cons, hsymbol, hothers]
          exact ⟨List.forall_mem_cons.mpr ⟨hlt, hall⟩, rfl⟩
    · rintro ⟨hall, hsymbols⟩
      obtain ⟨v, others, rfl, rfl, hrest⟩ := List.map_eq_cons_iff.mp hsymbols
      obtain ⟨hv, hothers⟩ := List.forall_mem_cons.mp hall
      rw [value?_symbol a v hv, (ih (offset + 1) others).mpr ⟨hothers, hrest⟩]
      rfl

/-- What comes after a check has a value exactly when nothing was wrong and it has one. -/
theorem throw_or_eq_ok_iff {ε α β : Type} {wrong : Prop} [Decidable wrong] {e : ε}
    {f : β → Except ε α} {x : Except ε α} {b : α} :
    (if wrong then throw e >>= f else x) = .ok b ↔ ¬ wrong ∧ x = .ok b := by
  split
  · next h => exact iff_of_false nofun fun hpass => hpass.1 h
  · next h => exact ⟨fun hx => ⟨h, hx⟩, And.right⟩

/-- What stands in a group before the first padding. -/
def symbolsOf (group : List UInt8) : List UInt8 := group.takeWhile (· != pad)

/-- What stands in a group from the first padding on. -/
def paddingOf (group : List UInt8) : List UInt8 := group.dropWhile (· != pad)

theorem symbolsOf_append_paddingOf (group : List UInt8) :
    symbolsOf group ++ paddingOf group = group :=
  List.takeWhile_append_dropWhile

/-- The last group is decoded when it consists of symbols, two at least, and of padding that
completes it, and when no bit is left over. -/
theorem decodeLast_eq_ok_iff (offset : Nat) (group bytes : List UInt8) :
    decodeLast a .canonical offset group = .ok bytes ↔
      ∃ values, a.values offset (symbolsOf group) = .ok values ∧
        (paddingOf group = [] ∨ 2 ≤ (symbolsOf group).length ∧ ∀ b ∈ paddingOf group, b = pad) ∧
        (group = [] ∨ 2 ≤ (symbolsOf group).length) ∧ group.length % 4 = 0 ∧
        groupBytes values = (bytes, true) := by
  have hclean (values : List Nat) (e : DecodeError) :
      (if (groupBytes values).2 = true then pure (groupBytes values).1 else throw e :
          Except DecodeError (List UInt8)) = .ok bytes ↔ groupBytes values = (bytes, true) := by
    rcases groupBytes values with ⟨found, _ | _⟩
    · exact iff_of_false nofun nofun
    · constructor
      · intro h
        rw [← Except.ok.inj h]
      · rintro ⟨⟩
        rfl
  have htail (symbols tail : List UInt8) :
      ¬ (!tail.isEmpty && (decide (symbols.length < 2) || tail.any (· != pad))) = true ↔
        tail = [] ∨ 2 ≤ symbols.length ∧ ∀ b ∈ tail, b = pad := by
    cases tail with
    | nil => exact iff_of_true Bool.false_ne_true (Or.inl rfl)
    | cons b rest =>
      simp only [List.isEmpty_cons, Bool.not_false, Bool.true_and, Bool.or_eq_true,
        decide_eq_true_eq, not_or, Nat.not_lt, List.any_eq_true, bne_iff_ne, ne_eq, not_exists,
        not_and, Decidable.not_not, reduceCtorEq, false_or]
  have hgroup (symbols : List UInt8) :
      ¬ (!group.isEmpty && decide (symbols.length < 2)) = true ↔
        group = [] ∨ 2 ≤ symbols.length := by
    cases group with
    | nil => exact iff_of_true Bool.false_ne_true (Or.inl rfl)
    | cons b rest =>
      simp only [List.isEmpty_cons, Bool.not_false, Bool.true_and, decide_eq_true_eq, Nat.not_lt,
        reduceCtorEq, false_or]
  unfold decodeLast
  dsimp only
  rw [Outcome.bind_eq_ok_iff]
  apply exists_congr
  intro values
  apply and_congr_right
  intro _
  rw [throw_or_eq_ok_iff, throw_or_eq_ok_iff, throw_or_eq_ok_iff, hclean, htail, hgroup,
    bne_iff_ne, ne_eq, Decidable.not_not]
  rfl

variable {values : List Nat} {n : Nat}

theorem symbols_ne_pad (h : ∀ v ∈ values, v < 64) :
    ∀ b ∈ values.map a.symbol, (b != pad) = true := by
  intro b hb
  obtain ⟨v, hv, rfl⟩ := List.mem_map.mp hb
  exact bne_iff_ne.mpr (symbol_ne_pad a v (h v hv))

theorem symbolsOf_padded (h : ∀ v ∈ values, v < 64) :
    symbolsOf (values.map a.symbol ++ List.replicate n pad) = values.map a.symbol := by
  unfold symbolsOf
  rw [List.takeWhile_append_of_pos (symbols_ne_pad h)]
  cases n <;> simp [List.replicate_succ]

theorem paddingOf_padded (h : ∀ v ∈ values, v < 64) :
    paddingOf (values.map a.symbol ++ List.replicate n pad) = List.replicate n pad := by
  unfold paddingOf
  rw [List.dropWhile_append_of_pos (symbols_ne_pad h)]
  cases n <;> simp [List.replicate_succ]

/-- The values of a group with its padding, which stand for some bytes. -/
structure Spells (values : List Nat) (n : Nat) (bytes : List UInt8) : Prop where
  lt : ∀ v ∈ values, v < 64
  two_le : 2 ≤ values.length
  complete : values.length + n = 4
  bytes : groupBytes values = (bytes, true)

/-- A group of four symbols that is not empty is decoded when it spells the bytes. -/
theorem decodeLast_four_eq_ok_iff (offset : Nat) {group : List UInt8} (hfour : group.length = 4)
    (bytes : List UInt8) :
    decodeLast a .canonical offset group = .ok bytes ↔
      ∃ values n, Spells values n bytes ∧
        values.map a.symbol ++ List.replicate n pad = group := by
  have hne : group ≠ [] := List.ne_nil_of_length_pos (by omega)
  rw [decodeLast_eq_ok_iff]
  constructor
  · rintro ⟨values, hvalues, hpadding, htwo, -, hbytes⟩
    obtain ⟨hlt, hsymbols⟩ := (values_eq_ok_iff _ _ _).mp hvalues
    have htwo : 2 ≤ values.length := by
      rw [← List.length_map a.symbol, hsymbols]
      exact htwo.resolve_left hne
    -- what is not a symbol is padding, so there is as much of it as is missing to four
    have hpads : paddingOf group = List.replicate (paddingOf group).length pad := by
      apply List.eq_replicate_iff.mpr
      refine ⟨rfl, ?_⟩
      rcases hpadding with hnil | ⟨-, hall⟩
      · rw [hnil]
        exact nofun
      · exact hall
    have hgroup : values.map a.symbol ++ List.replicate (paddingOf group).length pad = group := by
      rw [hsymbols, ← hpads, symbolsOf_append_paddingOf]
    have hlength := congrArg List.length hgroup
    rw [List.length_append, List.length_map, List.length_replicate, hfour] at hlength
    exact ⟨values, _, ⟨hlt, htwo, hlength, hbytes⟩, hgroup⟩
  · rintro ⟨values, n, hspells, rfl⟩
    rw [symbolsOf_padded hspells.lt, paddingOf_padded hspells.lt, List.length_map]
    refine ⟨values, (values_eq_ok_iff _ _ _).mpr ⟨hspells.lt, rfl⟩, Or.inr ⟨hspells.two_le, ?_⟩,
      Or.inr hspells.two_le, by rw [hfour], hspells.bytes⟩
    exact fun b hb => List.eq_of_mem_replicate hb

section Group

variable {x y z w : Nat}

theorem toNat_firstByte (hx : x < 64) (hy : y < 64) :
    (UInt8.ofNat (x * 4 + y / 16)).toNat = x * 4 + y / 16 := by
  rw [UInt8.toNat_ofNat']
  omega

theorem toNat_secondByte (y : Nat) (hz : z < 64) :
    (UInt8.ofNat (y % 16 * 16 + z / 4)).toNat = y % 16 * 16 + z / 4 := by
  rw [UInt8.toNat_ofNat']
  omega

theorem toNat_thirdByte (z : Nat) (hw : w < 64) :
    (UInt8.ofNat (z % 4 * 64 + w)).toNat = z % 4 * 64 + w := by
  rw [UInt8.toNat_ofNat']
  omega

theorem encode_of_two (hx : x < 64) (hy : y < 64) (hclean : y % 16 = 0) :
    encode a true [UInt8.ofNat (x * 4 + y / 16)] = [a.symbol x, a.symbol y, pad, pad] := by
  have hfirst : (x * 4 + y / 16) / 4 = x := by omega
  have hsecond : (x * 4 + y / 16) % 4 * 16 = y := by omega
  rw [encode, toNat_firstByte hx hy, hfirst, hsecond]
  rfl

theorem encode_of_three (hx : x < 64) (hy : y < 64) (hz : z < 64) (hclean : z % 4 = 0) :
    encode a true [UInt8.ofNat (x * 4 + y / 16), UInt8.ofNat (y % 16 * 16 + z / 4)] =
      [a.symbol x, a.symbol y, a.symbol z, pad] := by
  have hfirst : (x * 4 + y / 16) / 4 = x := by omega
  have hsecond : (x * 4 + y / 16) % 4 * 16 + (y % 16 * 16 + z / 4) / 16 = y := by omega
  have hthird : (y % 16 * 16 + z / 4) % 16 * 4 = z := by omega
  rw [encode, toNat_firstByte hx hy, toNat_secondByte y hz, hfirst, hsecond, hthird]
  rfl

theorem encode_of_four (hx : x < 64) (hy : y < 64) (hz : z < 64) (hw : w < 64) :
    encode a true [UInt8.ofNat (x * 4 + y / 16), UInt8.ofNat (y % 16 * 16 + z / 4),
      UInt8.ofNat (z % 4 * 64 + w)] = [a.symbol x, a.symbol y, a.symbol z, a.symbol w] := by
  have hfirst : (x * 4 + y / 16) / 4 = x := by omega
  have hsecond : (x * 4 + y / 16) % 4 * 16 + (y % 16 * 16 + z / 4) / 16 = y := by omega
  have hthird : (y % 16 * 16 + z / 4) % 16 * 4 + (z % 4 * 64 + w) / 64 = z := by omega
  have hfourth : (z % 4 * 64 + w) % 64 = w := by omega
  rw [encode, toNat_firstByte hx hy, toNat_secondByte y hz, toNat_thirdByte z hw, hfirst, hsecond,
    hthird, hfourth]
  rfl

end Group

variable {bytes : List UInt8}

/-- Values that spell some bytes are those that are written for them. -/
theorem encode_of_spells (h : Spells values n bytes) :
    encode a true bytes = values.map a.symbol ++ List.replicate n pad := by
  obtain ⟨hlt, htwo, hcomplete, hbytes⟩ := h
  -- a group holds one, two or three bytes, and no other number of values is complete
  match values, n with
  | [], _ => exact nomatch htwo
  | [_], _ => exact nomatch Nat.le_of_succ_le_succ htwo
  | [x, y], n =>
    obtain rfl : n = 2 := Nat.add_left_cancel hcomplete
    obtain ⟨rfl, hclean⟩ := Prod.mk.inj hbytes
    exact encode_of_two (hlt x (by simp)) (hlt y (by simp)) (beq_iff_eq.mp hclean)
  | [x, y, z], n =>
    obtain rfl : n = 1 := Nat.add_left_cancel hcomplete
    obtain ⟨rfl, hclean⟩ := Prod.mk.inj hbytes
    exact encode_of_three (hlt x (by simp)) (hlt y (by simp)) (hlt z (by simp))
      (beq_iff_eq.mp hclean)
  | [x, y, z, w], n =>
    obtain rfl : n = 0 := Nat.add_left_cancel hcomplete
    obtain ⟨rfl, -⟩ := Prod.mk.inj hbytes
    exact encode_of_four (hlt x (by simp)) (hlt y (by simp)) (hlt z (by simp)) (hlt w (by simp))
  | _ :: _ :: _ :: _ :: _ :: rest, n =>
    repeat rw [List.length_cons] at hcomplete
    omega

theorem spells_one (b : UInt8) : Spells [b.toNat / 4, b.toNat % 4 * 16] 2 [b] := by
  have hb := b.toNat_lt
  refine ⟨?_, by simp, rfl, ?_⟩
  · rw [List.forall_mem_cons, List.forall_mem_singleton]
    omega
  · have hfirst : b.toNat / 4 * 4 + b.toNat % 4 * 16 / 16 = b.toNat := by omega
    have hclean : b.toNat % 4 * 16 % 16 = 0 := by omega
    rw [groupBytes, hfirst, hclean, UInt8.ofNat_toNat]
    rfl

theorem spells_two (b c : UInt8) :
    Spells [b.toNat / 4, b.toNat % 4 * 16 + c.toNat / 16, c.toNat % 16 * 4] 1 [b, c] := by
  have hb := b.toNat_lt
  have hc := c.toNat_lt
  refine ⟨?_, by simp, rfl, ?_⟩
  · rw [List.forall_mem_cons, List.forall_mem_cons, List.forall_mem_singleton]
    omega
  · have hfirst : b.toNat / 4 * 4 + (b.toNat % 4 * 16 + c.toNat / 16) / 16 = b.toNat := by omega
    have hsecond : (b.toNat % 4 * 16 + c.toNat / 16) % 16 * 16 + c.toNat % 16 * 4 / 4 =
        c.toNat := by omega
    have hclean : c.toNat % 16 * 4 % 4 = 0 := by omega
    rw [groupBytes, hfirst, hsecond, hclean, UInt8.ofNat_toNat, UInt8.ofNat_toNat]
    rfl

theorem spells_three (b c d : UInt8) :
    Spells [b.toNat / 4, b.toNat % 4 * 16 + c.toNat / 16, c.toNat % 16 * 4 + d.toNat / 64,
      d.toNat % 64] 0 [b, c, d] := by
  have hb := b.toNat_lt
  have hc := c.toNat_lt
  have hd := d.toNat_lt
  refine ⟨?_, by simp, rfl, ?_⟩
  · rw [List.forall_mem_cons, List.forall_mem_cons, List.forall_mem_cons,
      List.forall_mem_singleton]
    omega
  · have hfirst : b.toNat / 4 * 4 + (b.toNat % 4 * 16 + c.toNat / 16) / 16 = b.toNat := by omega
    have hsecond : (b.toNat % 4 * 16 + c.toNat / 16) % 16 * 16 +
        (c.toNat % 16 * 4 + d.toNat / 64) / 4 = c.toNat := by omega
    have hthird : (c.toNat % 16 * 4 + d.toNat / 64) % 4 * 64 + d.toNat % 64 = d.toNat := by omega
    rw [groupBytes, hfirst, hsecond, hthird, UInt8.ofNat_toNat, UInt8.ofNat_toNat,
      UInt8.ofNat_toNat]

/-- There are values for one, two and three bytes. -/
theorem exists_spells (hne : bytes ≠ []) (hlength : bytes.length ≤ 3) :
    ∃ values n, Spells values n bytes := by
  match bytes with
  | [b] => exact ⟨_, _, spells_one b⟩
  | [b, c] => exact ⟨_, _, spells_two b c⟩
  | [b, c, d] => exact ⟨_, _, spells_three b c d⟩

/-- Three bytes are written on their own, whatever follows them. -/
theorem encode_cons_three (b c d : UInt8) (rest : List UInt8) :
    encode a true (b :: c :: d :: rest) = encode a true [b, c, d] ++ encode a true rest := by
  rw [encode, encode, encode, List.append_nil]

theorem encode_append {three : List UInt8} (hthree : three.length = 3) (rest : List UInt8) :
    encode a true (three ++ rest) = encode a true three ++ encode a true rest := by
  obtain ⟨b, c, d, rfl⟩ := List.length_eq_three.mp hthree
  exact encode_cons_three b c d rest

theorem length_encode (bytes : List UInt8) :
    (encode a true bytes).length = (bytes.length + 2) / 3 * 4 := by
  fun_induction encode a true bytes with
  | case1 => rfl
  | case2 b => simp
  | case3 b c => simp
  | case4 b c d rest ih =>
    rw [List.length_append, ih]
    simp only [List.length_cons, List.length_nil]
    omega

theorem decodeLast_iff (offset : Nat) {group : List UInt8} (hgroup : group.length ≤ 4)
    (bytes : List UInt8) :
    decodeLast a .canonical offset group = .ok bytes ↔ encode a true bytes = group := by
  by_cases hnil : group = []
  · subst hnil
    constructor
    · rintro ⟨⟩
      rfl
    · intro hencode
      have hlength := congrArg List.length hencode
      rw [length_encode, List.length_nil] at hlength
      have hbytes : bytes = [] := List.eq_nil_of_length_eq_zero (by omega)
      rw [hbytes]
      rfl
  · have hpos : 0 < group.length := List.length_pos_iff.mpr hnil
    constructor
    · intro hdecode
      obtain ⟨-, -, -, -, hfour, -⟩ := (decodeLast_eq_ok_iff offset group bytes).mp hdecode
      obtain ⟨values, n, hspells, rfl⟩ :=
        (decodeLast_four_eq_ok_iff offset (by omega) bytes).mp hdecode
      exact encode_of_spells hspells
    · intro hencode
      have hlength : (bytes.length + 2) / 3 * 4 = group.length := by
        rw [← length_encode, hencode]
      obtain ⟨values, n, hspells⟩ : ∃ values n, Spells values n bytes := by
        apply exists_spells
        · rintro rfl
          rw [List.length_nil] at hlength
          omega
        · omega
      rw [decodeLast_four_eq_ok_iff offset (by omega)]
      exact ⟨values, n, hspells, (encode_of_spells hspells).symm.trans hencode⟩

/-- A group that is not the last one has the values of three bytes. -/
theorem values_four_iff (offset : Nat) {group : List UInt8} (hfour : group.length = 4)
    (three : List UInt8) :
    (∃ values, a.values offset group = .ok values ∧ (groupBytes values).1 = three) ↔
      three.length = 3 ∧ encode a true three = group := by
  constructor
  · rintro ⟨values, hvalues, rfl⟩
    obtain ⟨hlt, rfl⟩ := (values_eq_ok_iff _ _ _).mp hvalues
    rw [List.length_map] at hfour
    match values, hfour with
    | [x, y, z, w], _ =>
      have hspells : Spells [x, y, z, w] 0 (groupBytes [x, y, z, w]).1 := ⟨hlt, by simp, rfl, rfl⟩
      refine ⟨rfl, (encode_of_spells hspells).trans ?_⟩
      exact List.append_nil _
  · rintro ⟨hthree, rfl⟩
    obtain ⟨b, c, d, rfl⟩ := List.length_eq_three.mp hthree
    have hspells := spells_three b c d
    refine ⟨_, (values_eq_ok_iff _ _ _).mpr ⟨hspells.lt, ?_⟩, congrArg Prod.fst hspells.bytes⟩
    rw [encode_of_spells hspells]
    exact (List.append_nil _).symm

/-- What is written for more than three bytes begins with the group of the first three. -/
theorem encode_eq_append_iff (group rest bytes : List UInt8) (hfour : group.length = 4)
    (hrest : rest ≠ []) :
    encode a true bytes = group ++ rest ↔
      ∃ three others, three.length = 3 ∧ encode a true three = group ∧
        encode a true others = rest ∧ bytes = three ++ others := by
  constructor
  · intro hencode
    have hpos := List.length_pos_iff.mpr hrest
    have hlength : (bytes.length + 2) / 3 * 4 = group.length + rest.length := by
      rw [← length_encode, hencode, List.length_append]
    have hthree : (bytes.take 3).length = 3 := by
      rw [List.length_take]
      omega
    have hgroup : (encode a true (bytes.take 3)).length = group.length := by
      rw [length_encode, hthree, hfour]
    -- the group of the first three bytes is as long as the given one, so the rests agree as well
    rw [← List.take_append_drop 3 bytes, encode_append hthree] at hencode
    obtain ⟨hfirst, hothers⟩ := List.append_inj hencode hgroup
    exact ⟨_, _, hthree, hfirst, hothers, (List.take_append_drop 3 bytes).symm⟩
  · rintro ⟨three, others, hthree, rfl, rfl, rfl⟩
    exact encode_append hthree others

/-- Groups of symbols are decoded to the bytes for which they are written. -/
theorem decodeGroups_iff (offset : Nat) (input bytes : List UInt8) :
    decodeGroups a .canonical offset input = .ok bytes ↔ encode a true bytes = input := by
  -- the cases are those of the decoder: a full group that more follows, and the last group
  induction offset, input using decodeGroups.induct generalizing bytes with
  | case1 offset b₁ b₂ b₃ b₄ b₅ rest ih =>
    rw [decodeGroups, Outcome.bind_eq_ok_iff]
    have hgroups := encode_eq_append_iff (a := a) [b₁, b₂, b₃, b₄] (b₅ :: rest) bytes rfl
      (List.cons_ne_nil b₅ rest)
    apply Iff.trans _ hgroups.symm
    constructor
    · rintro ⟨values, hvalues, hrest⟩
      obtain ⟨others, hothers, hbytes⟩ := (Outcome.bind_eq_ok_iff _ _ _).mp hrest
      obtain ⟨hthree, hgroup⟩ := (values_four_iff offset rfl _).mp ⟨values, hvalues, rfl⟩
      exact ⟨_, others, hthree, hgroup, (ih others).mp hothers, (Except.ok.inj hbytes).symm⟩
    · rintro ⟨three, others, hthree, hgroup, hothers, rfl⟩
      obtain ⟨values, hvalues, rfl⟩ := (values_four_iff offset rfl three).mpr ⟨hthree, hgroup⟩
      refine ⟨values, hvalues, (Outcome.bind_eq_ok_iff _ _ _).mpr ⟨others, ?_, rfl⟩⟩
      exact (ih others).mpr hothers
  | case2 offset group hshort =>
    rw [decodeGroups.eq_2 a .canonical offset group hshort]
    apply decodeLast_iff
    apply Nat.le_of_not_lt
    intro hlong
    match group, hlong with
    | b₁ :: b₂ :: b₃ :: b₄ :: b₅ :: rest, _ => exact hshort b₁ b₂ b₃ b₄ b₅ rest rfl

theorem strayLast?_of_length {input : List UInt8} (h : input.length % 4 = 0) :
    strayLast? a input = none := by
  unfold strayLast?
  split
  · rw [h]
    rfl
  · rfl

/-- The decoder gives some bytes back for what is written for them, and accepts nothing else. -/
theorem decode_eq_ok_iff (input bytes : List UInt8) :
    decode a .canonical input = .ok bytes ↔ encode a true bytes = input := by
  rw [← decodeGroups_iff 0 input bytes, decode]
  split
  · next b hstray =>
    constructor
    · exact nofun
    · -- a symbol can only be left over where the groups are not complete
      intro hgroups
      rw [decodeGroups_iff] at hgroups
      have hlength : input.length % 4 = 0 := by
        rw [← hgroups, length_encode, Nat.mul_mod_left]
      rw [strayLast?_of_length hlength] at hstray
      exact nomatch hstray
  · rfl

section Symbols

variable (P : UInt8 → Prop)

theorem forall_mem_of_spells (hpad : P pad) (hsymbol : ∀ v < 64, P (a.symbol v))
    (h : Spells values n bytes) : ∀ b ∈ encode a true bytes, P b := by
  rw [encode_of_spells h, List.forall_mem_append]
  constructor
  · intro b hb
    obtain ⟨v, hv, rfl⟩ := List.mem_map.mp hb
    exact hsymbol v (h.lt v hv)
  · intro b hb
    rw [List.eq_of_mem_replicate hb]
    exact hpad

/-- What is written consists of symbols and of padding. -/
theorem forall_mem_encode (hpad : P pad) (hsymbol : ∀ v < 64, P (a.symbol v))
    (bytes : List UInt8) : ∀ b ∈ encode a true bytes, P b := by
  induction bytes using encode.induct with
  | case1 => exact nofun
  | case2 b => exact forall_mem_of_spells P hpad hsymbol (spells_one b)
  | case3 b c => exact forall_mem_of_spells P hpad hsymbol (spells_two b c)
  | case4 b c d rest ih =>
    rw [encode_cons_three, List.forall_mem_append]
    exact ⟨forall_mem_of_spells P hpad hsymbol (spells_three b c d), ih⟩

end Symbols

end BearerAuth.Base64

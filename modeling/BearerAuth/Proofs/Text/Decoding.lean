import BearerAuth.Proofs.Text.Bytes

namespace BearerAuth.Text.Utf8

variable {bytes : List UInt8}

theorem toNat_ofNat_of_isValidChar {v : Nat} (h : v.isValidChar) : (Char.ofNat v).toNat = v := by
  rw [Char.ofNat, dif_pos h]
  rfl

theorem ofNat_eq {b : UInt8} {n : Nat} (h : n = b.toNat) : UInt8.ofNat n = b := by
  rw [h, UInt8.ofNat_toNat]

/-! ### Characters of two to four bytes

The bytes of a character are those from which it was put together, provided that they are the
shortest way to write it and that it is no surrogate. -/

section Character

variable {b x y z : UInt8}

/-- A byte after the first. -/
structure Continues (x : UInt8) : Prop where
  le : 0x80 ≤ x.toNat
  lt : x.toNat < 0xC0

theorem utf8EncodeChar_two (hb : 0xC2 ≤ b.toNat ∧ b.toNat < 0xE0) (hx : Continues x) :
    String.utf8EncodeChar (Char.ofNat ((b.toNat - 0xC0) * 64 + (x.toNat - 0x80))) = [b, x] := by
  have hle := hx.le
  have hlt := hx.lt
  generalize hv : (b.toNat - 0xC0) * 64 + (x.toNat - 0x80) = v
  have hvalid : v.isValidChar := Or.inl (by omega)
  have hb : v / 64 % 32 + 0xC0 = b.toNat := by omega
  have hx : v % 64 + 0x80 = x.toNat := by omega
  unfold String.utf8EncodeChar
  rw [Char.toNat_val, toNat_ofNat_of_isValidChar hvalid]
  dsimp only
  rw [if_neg (by omega), if_pos (by omega), ofNat_eq hb, ofNat_eq hx]

theorem utf8EncodeChar_three {first : Nat} (hb : b.toNat = 0xE0 + first) (hfirst : first < 16)
    (hx : Continues x) (hy : Continues y) (hshortest : first = 0 → 0xA0 ≤ x.toNat)
    (hscalar : first = 13 → x.toNat < 0xA0) :
    String.utf8EncodeChar (Char.ofNat
      ((first * 64 + (x.toNat - 0x80)) * 64 + (y.toNat - 0x80))) = [b, x, y] := by
  have hxle := hx.le
  have hxlt := hx.lt
  have hyle := hy.le
  have hylt := hy.lt
  generalize hv : (first * 64 + (x.toNat - 0x80)) * 64 + (y.toNat - 0x80) = v
  have hvalid : v.isValidChar := by
    change v < 0xD800 ∨ 0xDFFF < v ∧ v < 0x110000
    omega
  have hb : v / 4096 % 16 + 0xE0 = b.toNat := by omega
  have hx : v / 64 % 64 + 0x80 = x.toNat := by omega
  have hy : v % 64 + 0x80 = y.toNat := by omega
  unfold String.utf8EncodeChar
  rw [Char.toNat_val, toNat_ofNat_of_isValidChar hvalid]
  dsimp only
  rw [if_neg (by omega), if_neg (by omega), if_pos (by omega), ofNat_eq hb, ofNat_eq hx,
    ofNat_eq hy]

theorem utf8EncodeChar_four {first : Nat} (hb : b.toNat = 0xF0 + first) (hfirst : first ≤ 4)
    (hx : Continues x) (hy : Continues y) (hz : Continues z)
    (hshortest : first = 0 → 0x90 ≤ x.toNat) (hscalar : first = 4 → x.toNat < 0x90) :
    String.utf8EncodeChar (Char.ofNat
      (((first * 64 + (x.toNat - 0x80)) * 64 + (y.toNat - 0x80)) * 64 + (z.toNat - 0x80))) =
        [b, x, y, z] := by
  have hxle := hx.le
  have hxlt := hx.lt
  have hyle := hy.le
  have hylt := hy.lt
  have hzle := hz.le
  have hzlt := hz.lt
  generalize hv :
    ((first * 64 + (x.toNat - 0x80)) * 64 + (y.toNat - 0x80)) * 64 + (z.toNat - 0x80) = v
  have hvalid : v.isValidChar := Or.inr (by omega)
  have hb : v / 262144 % 8 + 0xF0 = b.toNat := by omega
  have hx : v / 4096 % 64 + 0x80 = x.toNat := by omega
  have hy : v / 64 % 64 + 0x80 = y.toNat := by omega
  have hz : v % 64 + 0x80 = z.toNat := by omega
  unfold String.utf8EncodeChar
  rw [Char.toNat_val, toNat_ofNat_of_isValidChar hvalid]
  dsimp only
  rw [if_neg (by omega), if_neg (by omega), if_neg (by omega), ofNat_eq hb, ofNat_eq hx,
    ofNat_eq hy, ofNat_eq hz]

end Character

section Reading

variable {b : UInt8} {c : Char} {rest r : List UInt8} {first low high : Nat}

theorem isContinuation_iff {x : UInt8} :
    isContinuation low high x = true ↔ low ≤ x.toNat ∧ x.toNat ≤ high := by
  unfold isContinuation
  rw [Bool.and_eq_true, decide_eq_true_iff, decide_eq_true_iff]

theorem continues_of_isContinuation {x : UInt8} (h : isContinuation 0x80 0xBF x = true) :
    Continues x := by
  obtain ⟨hlow, hhigh⟩ := isContinuation_iff.mp h
  exact ⟨hlow, by omega⟩

theorem ite_illFormed_eq_char_iff {continues : Prop} [Decidable continues] {s : Step}
    {left : List UInt8} :
    (if continues then s else .illFormed left) = .char c r ↔ continues ∧ s = .char c r := by
  split
  · next hc => exact (and_iff_right hc).symm
  · next hc => exact iff_of_false nofun fun hboth => hc hboth.1

theorem multibyte_zero (h : multibyte first low high 0 rest = .char c r) :
    ∃ x, rest = x :: r ∧ isContinuation low high x = true ∧
      c = Char.ofNat (first * 64 + (x.toNat - 0x80)) := by
  match rest with
  | [] => exact nomatch h
  | x :: tail =>
    obtain ⟨hx, h⟩ := ite_illFormed_eq_char_iff.mp h
    obtain ⟨rfl, rfl⟩ := Step.char.inj h
    exact ⟨x, rfl, hx, rfl⟩

theorem multibyte_one (h : multibyte first low high 1 rest = .char c r) :
    ∃ x y, rest = x :: y :: r ∧ isContinuation low high x = true ∧ Continues y ∧
      c = Char.ofNat ((first * 64 + (x.toNat - 0x80)) * 64 + (y.toNat - 0x80)) := by
  match rest with
  | [] => exact nomatch h
  | [x] => exact nomatch (ite_illFormed_eq_char_iff.mp h).2
  | x :: y :: tail =>
    obtain ⟨hx, h⟩ := ite_illFormed_eq_char_iff.mp h
    obtain ⟨hy, h⟩ := ite_illFormed_eq_char_iff.mp h
    obtain ⟨rfl, rfl⟩ := Step.char.inj h
    exact ⟨x, y, rfl, hx, continues_of_isContinuation hy, rfl⟩

theorem multibyte_two (h : multibyte first low high 2 rest = .char c r) :
    ∃ x y z, rest = x :: y :: z :: r ∧ isContinuation low high x = true ∧ Continues y ∧
      Continues z ∧ c = Char.ofNat
        (((first * 64 + (x.toNat - 0x80)) * 64 + (y.toNat - 0x80)) * 64 + (z.toNat - 0x80)) := by
  match rest with
  | [] => exact nomatch h
  | [x] => exact nomatch (ite_illFormed_eq_char_iff.mp h).2
  | [x, y] =>
    obtain ⟨-, h⟩ := ite_illFormed_eq_char_iff.mp h
    exact nomatch (ite_illFormed_eq_char_iff.mp h).2
  | x :: y :: z :: tail =>
    obtain ⟨hx, h⟩ := ite_illFormed_eq_char_iff.mp h
    obtain ⟨hy, h⟩ := ite_illFormed_eq_char_iff.mp h
    obtain ⟨hz, h⟩ := ite_illFormed_eq_char_iff.mp h
    obtain ⟨rfl, rfl⟩ := Step.char.inj h
    exact ⟨x, y, z, rfl, hx, continues_of_isContinuation hy, continues_of_isContinuation hz, rfl⟩

theorem bytes_of_multibyte_zero (hb : 0xC2 ≤ b.toNat ∧ b.toNat < 0xE0)
    (h : multibyte (b.toNat - 0xC0) 0x80 0xBF 0 rest = .char c r) :
    b :: rest = String.utf8EncodeChar c ++ r := by
  obtain ⟨x, rfl, hx, hc⟩ := multibyte_zero h
  rw [hc, utf8EncodeChar_two hb (continues_of_isContinuation hx)]
  rfl

theorem bytes_of_multibyte_one (hb : b.toNat = 0xE0 + first ∧ first < 16)
    (hrange : 0x80 ≤ low ∧ high ≤ 0xBF ∧ (first = 0 → 0xA0 ≤ low) ∧ (first = 13 → high < 0xA0))
    (h : multibyte first low high 1 rest = .char c r) :
    b :: rest = String.utf8EncodeChar c ++ r := by
  obtain ⟨x, y, rfl, hx, hy, hc⟩ := multibyte_one h
  obtain ⟨hxlow, hxhigh⟩ := isContinuation_iff.mp hx
  have hx : Continues x := ⟨by omega, by omega⟩
  rw [hc, utf8EncodeChar_three hb.1 hb.2 hx hy (by omega) (by omega)]
  rfl

theorem bytes_of_multibyte_two (hb : b.toNat = 0xF0 + first ∧ first ≤ 4)
    (hrange : 0x80 ≤ low ∧ high ≤ 0xBF ∧ (first = 0 → 0x90 ≤ low) ∧ (first = 4 → high < 0x90))
    (h : multibyte first low high 2 rest = .char c r) :
    b :: rest = String.utf8EncodeChar c ++ r := by
  obtain ⟨x, y, z, rfl, hx, hy, hz, hc⟩ := multibyte_two h
  obtain ⟨hxlow, hxhigh⟩ := isContinuation_iff.mp hx
  have hx : Continues x := ⟨by omega, by omega⟩
  rw [hc, utf8EncodeChar_four hb.1 hb.2 hx hy hz (by omega) (by omega)]
  rfl

/-- A character is read from the bytes that are written for it. -/
theorem bytes_of_step (h : step b rest = .char c r) :
    b :: rest = String.utf8EncodeChar c ++ r := by
  unfold step at h
  dsimp only at h
  -- one case for each range of first bytes
  split at h
  · next hb =>
    obtain ⟨hc, rfl⟩ := Step.char.inj h
    have hcode : c.toNat = b.toNat := by
      rw [← hc, toNat_ofNat_of_isValidChar (Or.inl (by omega))]
    rw [utf8EncodeChar_of_ascii (by omega), hcode, UInt8.ofNat_toNat]
    rfl
  split at h
  · exact nomatch h
  split at h
  · exact bytes_of_multibyte_zero (by omega) h
  -- the first byte decides the range of the second where not every value of it would do
  split at h
  · next hb =>
    have hb : b.toNat = 0xE0 := beq_iff_eq.mp hb
    exact bytes_of_multibyte_one (by omega) (by omega) h
  next hE0 =>
  rw [beq_iff_eq] at hE0
  split at h
  · next hb =>
    have hb : b.toNat = 0xED := beq_iff_eq.mp hb
    exact bytes_of_multibyte_one (by omega) (by omega) h
  next hED =>
  rw [beq_iff_eq] at hED
  split at h
  · exact bytes_of_multibyte_one (by omega) (by omega) h
  split at h
  · next hb =>
    have hb : b.toNat = 0xF0 := beq_iff_eq.mp hb
    exact bytes_of_multibyte_two (by omega) (by omega) h
  next hF0 =>
  rw [beq_iff_eq] at hF0
  split at h
  · exact bytes_of_multibyte_two (by omega) (by omega) h
  split at h
  · next hb =>
    have hb : b.toNat = 0xF4 := beq_iff_eq.mp hb
    exact bytes_of_multibyte_two (by omega) (by omega) h
  · exact nomatch h

end Reading

/-- A text in which nothing was replaced has the bytes that were read. -/
theorem flatMap_decodeLossyChars (h : '\ufffd' ∉ decodeLossyChars bytes) :
    (decodeLossyChars bytes).flatMap String.utf8EncodeChar = bytes := by
  fun_induction decodeLossyChars bytes with
  | case1 => rfl
  | case2 b rest hle r hstep hr ih =>
    -- an ill-formed part would have been replaced
    exact absurd List.mem_cons_self h
  | case3 b rest hle c r hstep hr ih =>
    rw [List.flatMap_cons, ih fun hmem => h (List.mem_cons_of_mem c hmem)]
    exact (bytes_of_step hstep).symm

theorem encode_decodeLossy (h : '\ufffd' ∉ (decodeLossy bytes).toList) :
    encode (decodeLossy bytes) = bytes := by
  unfold decodeLossy at h ⊢
  rw [String.toList_ofList] at h
  rw [encode_eq_flatMap, String.toList_ofList]
  exact flatMap_decodeLossyChars h

/-! ### ASCII -/

theorem step_of_lt {b : UInt8} (h : b.toNat < 128) (rest : List UInt8) :
    step b rest = .char (Char.ofNat b.toNat) rest := by
  unfold step
  exact if_pos h

theorem decodeLossyChars_of_ascii (h : ∀ b ∈ bytes, b.toNat < 128) :
    decodeLossyChars bytes = bytes.map fun b => Char.ofNat b.toNat := by
  fun_induction decodeLossyChars bytes with
  | case1 => rfl
  | case2 b rest hle r hstep hr ih =>
    rw [step_of_lt (h b List.mem_cons_self)] at hstep
    exact nomatch hstep
  | case3 b rest hle c r hstep hr ih =>
    obtain ⟨hb, hrest⟩ := List.forall_mem_cons.mp h
    rw [step_of_lt hb] at hstep
    obtain ⟨rfl, rfl⟩ := Step.char.inj hstep
    rw [ih hrest, List.map_cons]

theorem decodeLossy_of_ascii (h : ∀ b ∈ bytes, b.toNat < 128) :
    decodeLossy bytes = String.ofList (bytes.map fun b => Char.ofNat b.toNat) := by
  rw [decodeLossy, decodeLossyChars_of_ascii h]

/-- ASCII bytes are those of the text whose characters they are the codes of. -/
theorem encode_ofList_of_ascii (h : ∀ b ∈ bytes, b.toNat < 128) :
    encode (String.ofList (bytes.map fun b => Char.ofNat b.toNat)) = bytes := by
  -- the text is what the bytes are read as, and nothing in it was replaced
  rw [← decodeLossy_of_ascii h]
  apply encode_decodeLossy
  rw [decodeLossy_of_ascii h, String.toList_ofList]
  intro hmem
  obtain ⟨b, hb, hcode⟩ := List.mem_map.mp hmem
  have hlt : b.toNat < 128 := h b hb
  have hvalid : (Char.ofNat b.toNat).toNat = b.toNat :=
    toNat_ofNat_of_isValidChar (Or.inl (by omega))
  rw [hcode] at hvalid
  exact absurd (hvalid ▸ hlt) (by decide)

/-- Texts with the same bytes are the same. -/
theorem encode_inj {s t : String} : encode s = encode t ↔ s = t := by
  refine ⟨fun h => ?_, congrArg encode⟩
  -- the lists are those of the byte arrays, which the texts are made of
  unfold encode ByteArray.toList at h
  rw [byteArray_loop_eq, byteArray_loop_eq] at h
  apply String.toByteArray_inj.mp
  apply ByteArray.ext
  apply Array.toList_inj.mp
  exact h

end BearerAuth.Text.Utf8

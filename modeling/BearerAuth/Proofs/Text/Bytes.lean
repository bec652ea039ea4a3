import BearerAuth.Text.Bytes

namespace BearerAuth.Text.Utf8

theorem byteArray_loop_eq (bytes : ByteArray) (i : Nat) (acc : List UInt8) :
    ByteArray.toList.loop bytes i acc = acc.reverse ++ bytes.data.toList.drop i := by
  -- the loop counts upwards, so its own cases carry the induction
  fun_induction ByteArray.toList.loop bytes i acc with
  | case1 i acc hi ih =>
    have hget : bytes.get! i = bytes.data.toList[i] := by
      cases bytes with
      | mk data => simp [ByteArray.get!, getElem!_pos data i hi]
    have hdrop : bytes.data.toList.drop i =
        bytes.data.toList[i] :: bytes.data.toList.drop (i + 1) :=
      List.drop_eq_getElem_cons hi
    rw [ih, hget, hdrop, List.reverse_cons, List.append_assoc, List.singleton_append]
  | case2 i acc hi =>
    have hdrop : bytes.data.toList.drop i = [] := List.drop_eq_nil_of_le (Nat.le_of_not_lt hi)
    rw [hdrop, List.append_nil]

/-- The bytes of a text are those of its characters, one after the other. -/
theorem encode_eq_flatMap (s : String) : encode s = s.toList.flatMap String.utf8EncodeChar := by
  have hbytes : s.toUTF8 = (s.toList.flatMap String.utf8EncodeChar).toByteArray := by
    rw [String.toUTF8_eq_toByteArray, ← String.utf8Encode_toList]
    rfl
  -- the model reads bytes through the loop, the library through a list
  rw [encode, hbytes, ByteArray.toList, byteArray_loop_eq]
  simp only [List.reverse_nil, List.drop_zero, List.nil_append, List.toList_data_toByteArray]

/-- A byte of a character is its code or else at least 128. -/
theorem toNat_eq_or_le_of_mem (c : Char) (b : UInt8) (hb : b ∈ String.utf8EncodeChar c) :
    b.toNat = c.toNat ∨ 128 ≤ b.toNat := by
  simp only [String.utf8EncodeChar, Char.toNat_val] at hb
  split at hb
  · left
    rw [List.mem_singleton.mp hb, UInt8.toNat_ofNat']
    omega
  · right
    split at hb
    · simp only [List.mem_cons, List.not_mem_nil, or_false] at hb
      rcases hb with rfl | rfl <;> rw [UInt8.toNat_ofNat'] <;> omega
    · split at hb
      · simp only [List.mem_cons, List.not_mem_nil, or_false] at hb
        rcases hb with rfl | rfl | rfl <;> rw [UInt8.toNat_ofNat'] <;> omega
      · simp only [List.mem_cons, List.not_mem_nil, or_false] at hb
        rcases hb with rfl | rfl | rfl | rfl <;> rw [UInt8.toNat_ofNat'] <;> omega

/-- A text without an ASCII character has no byte of that code. -/
theorem not_mem_encode (s : String) (c : Char) (b : UInt8) (hc : c.toNat < 128)
    (hb : b.toNat = c.toNat) (hs : c ∉ s.toList) : b ∉ encode s := by
  intro hmem
  rw [encode_eq_flatMap, List.mem_flatMap] at hmem
  obtain ⟨d, hd, hbd⟩ := hmem
  rcases toNat_eq_or_le_of_mem d b hbd with h | h
  · have hcd : c = d := Char.toNat_inj.mp (hb.symm.trans h)
    exact hs (hcd ▸ hd)
  · omega

def isAscii (s : String) : Bool := s.toList.all fun c => c.toNat < 128

theorem utf8EncodeChar_of_ascii {c : Char} (h : c.toNat < 128) :
    String.utf8EncodeChar c = [UInt8.ofNat c.toNat] := by
  have hle : c.val.toNat ≤ 127 := Nat.le_of_lt_succ h
  simp only [String.utf8EncodeChar, hle, if_true]
  rfl

theorem step_of_ascii {c : Char} (h : c.toNat < 128) (rest : List UInt8) :
    step (UInt8.ofNat c.toNat) rest = .char c rest := by
  have hcode : (UInt8.ofNat c.toNat).toNat = c.toNat := by
    rw [UInt8.toNat_ofNat']
    omega
  unfold step
  simp only [hcode, h, if_true, Char.ofNat_toNat]

/-- An ASCII text is read back as it was written. -/
theorem decode?_encode_of_ascii {s : String} (h : isAscii s = true) :
    decode? (encode s) = some s := by
  have hchars : ∀ cs : List Char, (∀ c ∈ cs, c.toNat < 128) →
      decodeChars? (cs.flatMap String.utf8EncodeChar) = some cs := by
    intro cs hcs
    induction cs with
    | nil => simp [decodeChars?]
    | cons c cs ih =>
      obtain ⟨hc, hrest⟩ := List.forall_mem_cons.mp hcs
      rw [List.flatMap_cons, utf8EncodeChar_of_ascii hc, List.singleton_append, decodeChars?]
      split
      · next hstep =>
        rw [step_of_ascii hc] at hstep
        cases hstep
      · next hstep =>
        rw [step_of_ascii hc] at hstep
        cases hstep
        rw [ih hrest]
        rfl
  have hascii : ∀ c ∈ s.toList, c.toNat < 128 := by
    intro c hc
    exact of_decide_eq_true (List.all_eq_true.mp h c hc)
  rw [encode_eq_flatMap, decode?, hchars s.toList hascii, Option.map_some, String.ofList_toList]

end BearerAuth.Text.Utf8

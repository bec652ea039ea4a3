import Mathlib.Data.List.TakeWhile
import BearerAuth.Base64
import BearerAuth.Proofs.Text.Bytes

namespace BearerAuth.Base64

theorem decodeLast_absent_eq (a : Alphabet) (offset : Nat) (group : List UInt8) (h : pad ∉ group) :
    decodeLast a .absent offset group = decodeLast a .indifferent offset group := by
  have htail : group.dropWhile (· != pad) = [] := by
    apply List.dropWhile_eq_nil_iff.mpr
    intro b hb
    exact bne_iff_ne.mpr (fun hbp => h (hbp ▸ hb))
  -- the decoders differ in what they make of the tail only
  unfold decodeLast
  simp only [htail, List.isEmpty_nil, Bool.not_true, Bool.false_and, Bool.false_eq_true,
    ↓reduceIte]

theorem decodeGroups_absent_eq (a : Alphabet) (offset : Nat) (input : List UInt8)
    (h : pad ∉ input) :
    decodeGroups a .absent offset input = decodeGroups a .indifferent offset input := by
  fun_induction decodeGroups a .absent offset input with
  | case1 offset b₁ b₂ b₃ b₄ b₅ rest ih =>
    have hrest : pad ∉ b₅ :: rest :=
      fun hmem => h (List.mem_append_right [b₁, b₂, b₃, b₄] hmem)
    rw [ih hrest, decodeGroups]
  | case2 offset group hshort =>
    rw [decodeLast_absent_eq a offset group h]
    exact (decodeGroups.eq_2 a .indifferent offset group hshort).symm

/-- Without padding both decoders give the same answer. -/
theorem decode_absent_eq (a : Alphabet) (input : List UInt8) (h : pad ∉ input) :
    decode a .absent input = decode a .indifferent input := by
  unfold decode
  rw [decodeGroups_absent_eq a 0 input h]

theorem decode_encode_absent_eq (a : Alphabet) (s : String) (h : '=' ∉ s.toList) :
    decode a .absent (Text.Utf8.encode s) = decode a .indifferent (Text.Utf8.encode s) :=
  decode_absent_eq a _ (Text.Utf8.not_mem_encode s '=' pad (by decide) rfl h)

end BearerAuth.Base64

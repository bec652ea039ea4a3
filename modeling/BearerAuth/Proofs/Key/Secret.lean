import Mathlib
import BearerAuth.Key.Direct
import BearerAuth.Proofs.Base64.Canonical
import BearerAuth.Proofs.Text.Decoding
import BearerAuth.Proofs.Text.Trimming

namespace BearerAuth

namespace Base64

variable {a : Alphabet}

theorem toNat_lt_of_mem_encode {bytes : List UInt8} {b : UInt8} (h : b ∈ encode a true bytes) :
    b.toNat < 128 := by
  have hpad : pad.toNat < 128 := by decide
  have hsymbol : ∀ v < 64, (a.symbol v).toNat < 128 := by cases a <;> decide
  exact forall_mem_encode (fun b => b.toNat < 128) hpad hsymbol bytes b h

theorem toList_encodeText (bytes : List UInt8) :
    (encodeText a true bytes).toList =
      (encode a true bytes).map fun b => Char.ofNat b.toNat :=
  String.toList_ofList

/-- No character of base64 is blank, and none stands for bytes that are not text. -/
theorem of_mem_encodeText {bytes : List UInt8} {c : Char}
    (h : c ∈ (encodeText a true bytes).toList) :
    Text.isBlankChar c = false ∧ c ≠ '\ufffd' := by
  let P (b : UInt8) : Prop :=
    Text.isBlankChar (Char.ofNat b.toNat) = false ∧ Char.ofNat b.toNat ≠ '\ufffd'
  have hpad : P pad := by decide
  have hsymbol : ∀ v < 64, P (a.symbol v) := by cases a <;> decide
  rw [toList_encodeText] at h
  obtain ⟨b, hb, rfl⟩ := List.mem_map.mp h
  exact forall_mem_encode P hpad hsymbol bytes b hb

/-- A text is decoded when it is the base64 of some bytes, which are the ones it gives. -/
theorem decode_text_eq_ok_iff (text : String) (bytes : List UInt8) :
    decode a .canonical (Text.Utf8.encode text) = .ok bytes ↔ text = encodeText a true bytes := by
  have hbytes : Text.Utf8.encode (encodeText a true bytes) = encode a true bytes :=
    Text.Utf8.encode_ofList_of_ascii fun b hb => toNat_lt_of_mem_encode hb
  rw [decode_eq_ok_iff, ← hbytes, eq_comm, Text.Utf8.encode_inj]

theorem eq_nil_of_encodeText {bytes : List UInt8} (h : encodeText a true bytes = "") :
    bytes = [] := by
  have hchars : (encode a true bytes).map (fun b => Char.ofNat b.toNat) = [] := by
    rw [← toList_encodeText, h]
    rfl
  have hlength : (bytes.length + 2) / 3 * 4 = 0 := by
    rw [← length_encode, List.map_eq_nil_iff.mp hchars]
    rfl
  exact List.eq_nil_of_length_eq_zero (by omega)

theorem trim_encodeText (bytes : List UInt8) :
    Text.trim (encodeText a true bytes) = encodeText a true bytes := by
  apply String.toList_inj.mp
  rw [Text.toList_trim]
  apply Text.trimChars_of_forall
  exact fun c hc => (of_mem_encodeText hc).1

end Base64

namespace DirectKey

/-- The text of a file without the white space around it. -/
def fileText (content : List UInt8) : String := Text.trim (Text.Utf8.decodeLossy content)

/-- A text in the canonical form of base64: the one that is written for some bytes. -/
def IsCanonical (text : String) : Prop := ∃ bytes, text = Base64.encodeText .standard true bytes

/-- A byte of ASCII white space: one from the tab to the carriage return, or a space. -/
def IsBlank (b : UInt8) : Prop := 9 ≤ b.toNat ∧ b.toNat ≤ 13 ∨ b.toNat = 32

theorem IsBlank.lt {b : UInt8} (h : IsBlank b) : b.toNat < 128 := by
  unfold IsBlank at h
  omega

theorem IsBlank.isBlankChar {b : UInt8} (h : IsBlank b) :
    Text.isBlankChar (Char.ofNat b.toNat) = true := by
  have hcode : (Char.ofNat b.toNat).toNat = b.toNat :=
    Text.Utf8.toNat_ofNat_of_isValidChar (Or.inl (h.lt.trans (by decide)))
  unfold Text.isBlankChar
  dsimp only
  rw [hcode]
  rcases h with ⟨hle, hlt⟩ | hspace
  · rw [decide_eq_true hle, decide_eq_true hlt]
    rfl
  · rw [hspace]
    rfl

/-- White space around the base64 in a file is no part of its text. -/
theorem fileText_padded (before after : List UInt8) (hbefore : ∀ b ∈ before, IsBlank b)
    (hafter : ∀ b ∈ after, IsBlank b) (bytes : List UInt8) :
    fileText (before ++ Base64.encode .standard true bytes ++ after) =
      Base64.encodeText .standard true bytes := by
  -- all of the file is ASCII, so it is read byte by byte
  have hascii : ∀ b ∈ before ++ Base64.encode .standard true bytes ++ after, b.toNat < 128 := by
    simp only [List.forall_mem_append]
    exact ⟨⟨fun b hb => (hbefore b hb).lt, fun b hb => Base64.toNat_lt_of_mem_encode hb⟩,
      fun b hb => (hafter b hb).lt⟩
  have hblank (around : List UInt8) (haround : ∀ b ∈ around, IsBlank b) :
      ∀ c ∈ around.map fun b => Char.ofNat b.toNat, Text.isBlankChar c = true := by
    intro c hc
    obtain ⟨b, hb, rfl⟩ := List.mem_map.mp hc
    exact (haround b hb).isBlankChar
  apply String.toList_inj.mp
  rw [fileText, Text.toList_trim, Text.Utf8.decodeLossy_of_ascii hascii, String.toList_ofList,
    List.map_append, List.map_append, Text.trimChars_append_right (hblank after hafter),
    Text.trimChars_append_left (hblank before hbefore), ← Base64.toList_encodeText,
    ← Text.toList_trim, Base64.trim_encodeText]

/-- A file whose text is base64 holds no byte that is not text. -/
theorem encode_of_fileText {content bytes : List UInt8}
    (h : fileText content = Base64.encodeText .standard true bytes) :
    Text.Utf8.encode (Text.Utf8.decodeLossy content) = content := by
  -- what stands for a byte that is not text is neither white space nor a symbol
  apply Text.Utf8.encode_decodeLossy
  obtain ⟨before, after, hbefore, hafter, hchars⟩ :=
    Text.exists_trimChars (Text.Utf8.decodeLossy content).toList
  rw [← Text.toList_trim, ← fileText, h] at hchars
  rw [hchars, List.mem_append, List.mem_append]
  rintro ((hmem | hmem) | hmem)
  · exact absurd (hbefore _ hmem) (by decide)
  · exact (Base64.of_mem_encodeText hmem).2 rfl
  · exact absurd (hafter _ hmem) (by decide)

theorem secretOfContent_of_fileText {content bytes : List UInt8} (hne : bytes ≠ [])
    (h : fileText content = Base64.encodeText .standard true bytes) :
    secretOfContent content = bytes := by
  have hdecode := (Base64.decode_text_eq_ok_iff _ _).mpr h
  unfold fileText at hdecode
  obtain ⟨b, rest, rfl⟩ := List.exists_cons_of_ne_nil hne
  unfold secretOfContent
  dsimp only
  rw [hdecode]

theorem secretOfContent_eq_self {content : List UInt8}
    (h : ∀ bytes, fileText content = Base64.encodeText .standard true bytes → bytes = []) :
    secretOfContent content = content := by
  unfold secretOfContent
  dsimp only
  split
  · next b rest hdecode =>
    have hempty := h _ ((Base64.decode_text_eq_ok_iff _ _).mp hdecode)
    exact nomatch hempty
  · rfl

theorem loadSecret_of_read {files : FileSystem} {path : String} {content : List UInt8}
    (hread : files.read path = .ok content) :
    loadSecret files path = .ok (.secret (secretOfContent content)) := by
  unfold loadSecret readFile
  rw [hread]
  rfl

/-- What is loaded as a secret from a file that can be read. The base64 of some bytes, with white
space around it, stands for these bytes. Where the text is empty or not the base64 of anything,
which is so where the file is no text at all, the secret is all that the file holds. -/
theorem loads_base64_else_content (files : FileSystem) (path : String) (content : List UInt8)
    (hread : files.read path = .ok content) :
    ∃ secret, loadSecret files path = .ok (.secret secret) ∧
      (DirectKey.secret secret).bits? = some (8 * secret.length) ∧
      (∀ bytes before after, bytes ≠ [] → (∀ b ∈ before, IsBlank b) → (∀ b ∈ after, IsBlank b) →
        content = before ++ Base64.encode .standard true bytes ++ after → secret = bytes) ∧
      (fileText content = "" ∨ ¬ IsCanonical (fileText content) → secret = content) ∧
      ((∀ text, Text.Utf8.encode text ≠ content) → secret = content) := by
  refine ⟨secretOfContent content, loadSecret_of_read hread, ?_, ?_, ?_, ?_⟩
  · rw [bits?, Nat.mul_comm]
  · rintro bytes before after hne hbefore hafter rfl
    have htext := fileText_padded before after hbefore hafter bytes
    exact secretOfContent_of_fileText hne htext
  · intro hraw
    apply secretOfContent_eq_self
    intro bytes hbytes
    rcases hraw with hempty | hother
    · exact Base64.eq_nil_of_encodeText (hbytes.symm.trans hempty)
    · exact absurd ⟨bytes, hbytes⟩ hother
  · intro hbinary
    apply secretOfContent_eq_self
    intro bytes hbytes
    have hcontent := encode_of_fileText hbytes
    exact absurd hcontent (hbinary _)

/-- A file system with one file. -/
def holding (content : List UInt8) : FileSystem := { entries := [(["secret"], .file content)] }

set_option maxRecDepth 100000 in
theorem read_holding (content : List UInt8) : (holding content).read "secret" = .ok content := by
  cbv

/-- Two letters in base64 with a line feed after them, and white space alone. -/
theorem loads_base64_else_content_greeting :
    loadSecret (holding [97, 71, 107, 61, 10]) "secret" = .ok (.secret [104, 105]) ∧
      loadSecret (holding [32, 10]) "secret" = .ok (.secret [32, 10]) := by
  have hspace : IsBlank 32 := Or.inr rfl
  have hlineFeed : IsBlank 10 := Or.inl (by decide)
  constructor
  · obtain ⟨secret, hload, -, hpadded, -⟩ :=
      loads_base64_else_content _ _ _ (read_holding [97, 71, 107, 61, 10])
    have hsecret : secret = [104, 105] :=
      hpadded [104, 105] [] [10] (by decide) nofun (List.forall_mem_singleton.mpr hlineFeed)
        (by decide)
    rw [hload, hsecret]
  · obtain ⟨secret, hload, -, -, hraw, -⟩ :=
      loads_base64_else_content _ _ _ (read_holding [32, 10])
    have hempty : fileText [32, 10] = "" :=
      fileText_padded [32] [10] (List.forall_mem_singleton.mpr hspace)
        (List.forall_mem_singleton.mpr hlineFeed) []
    rw [hload, hraw (Or.inl hempty)]

end DirectKey

end BearerAuth

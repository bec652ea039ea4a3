import BearerAuth.Key.Set
import BearerAuth.Proofs.Text.Bytes

namespace BearerAuth

/-- The document at a location at some moment, or why it cannot be had. -/
def KeySetLocation.documentAt (location : KeySetLocation) (w : Surroundings) :
    Except KeyError String :=
  (KeySet.readDocument location w {}).1

/-- The document in a file of ASCII text is the text. -/
theorem KeySetLocation.documentAt_of_find {w : Surroundings} {path text : String}
    (hfind : w.files.find path = .ok (.file (Text.Utf8.encode text)))
    (hascii : Text.Utf8.isAscii text = true) :
    (KeySetLocation.file path).documentAt w = .ok text := by
  have hread : w.files.read path = .ok (Text.Utf8.encode text) := by
    unfold FileSystem.read
    rw [hfind]
    rfl
  have htext : w.files.readText path = .ok text := by
    unfold FileSystem.readText
    rw [hread]
    simp only [bind, Except.bind, Text.Utf8.decode?_encode_of_ascii hascii]
    rfl
  change (w.files.readText path).mapError _ = _
  rw [htext]
  rfl

namespace KeySet

section Document

variable {document : String} (uri : String)

/-- A document that is no JSON publishes nothing. -/
theorem ofDocument_of_unread {e : Json.ParseError} (h : Json.read document = .error e) :
    ofDocument uri document = .error (.invalidDocument uri e.message) := by
  unfold ofDocument
  rw [h]
  rfl

variable {v : Json} (h : Json.read document = .ok v)
include h

theorem mapError_read (f : Json.ParseError → KeyError) :
    (Json.read document).mapError f = .ok v := by
  rw [h]
  rfl

/-- A document without a list of keys publishes nothing. -/
theorem ofDocument_of_keyless (hkeys : (v.member? "keys").bind Json.array? = none) :
    ofDocument uri document = .error (.invalidDocument uri "missing 'keys' array") := by
  unfold ofDocument
  rw [mapError_read h]
  simp only [bind, Except.bind, hkeys]
  rfl

/-- Of the entries of a list those are published that are usable keys. -/
theorem ofDocument_of_entries {entries : List Json}
    (hkeys : (v.member? "keys").bind Json.array? = some entries) :
    ofDocument uri document = .ok (entries.filterMap entry?) := by
  unfold ofDocument
  rw [mapError_read h]
  simp only [bind, Except.bind, hkeys]
  rfl

end Document

/-- What is read does not depend on what the process did before. -/
theorem fst_readDocument (location : KeySetLocation) (w : Surroundings) (s : ProcessState) :
    (readDocument location w s).1 = location.documentAt w := by
  unfold KeySetLocation.documentAt
  cases location with
  | file path => rfl
  | network url =>
    simp only [readDocument, Run.fetchKeys, Run.bind_apply, Run.pure_apply, Run.fetch]
    cases fetchAddress url.text with
    | error e => rfl
    | ok address => rfl

/-- The keys at a location at some moment. -/
def publishedAt (location : KeySetLocation) (w : Surroundings) : Except KeyError KeySet :=
  (location.documentAt w).bind (ofDocument location.text)

theorem publishedAt_of_documentAt {location : KeySetLocation} {w : Surroundings}
    {document : String} (h : location.documentAt w = .ok document) :
    publishedAt location w = ofDocument location.text document := by
  rw [publishedAt, h]
  rfl

theorem fst_load (location : KeySetLocation) (w : Surroundings) (s : ProcessState) :
    (load location w s).1 = publishedAt location w := by
  have hdocument := fst_readDocument location w s
  unfold load publishedAt
  rw [← hdocument]
  rfl

/-- What a header gets from published keys, by a choice among those of one identifier. -/
def answer (location : KeySetLocation) (choose : KeySet → String → Option KeyMaterial)
    (published : Except KeyError KeySet) (header : KeyHeader) : Except KeyError KeyMaterial :=
  match header.requireKeyId, published with
  | .error e, _ => .error e
  | .ok _, .error e => .error e
  | .ok id, .ok keys =>
    match choose keys id with
    | some key => .ok key
    | none => .error (.keyNotFound id location.text)

/-- Without a cache a header gets the key that is listed first. -/
theorem fst_locate (location : KeySetLocation) (header : KeyHeader) (w : Surroundings)
    (s : ProcessState) :
    (locate location header w s).1 =
      answer location (fun keys id => keys.lookup id) (publishedAt location w) header := by
  unfold locate answer
  cases header.requireKeyId with
  | error e => rfl
  | ok id =>
    simp only [Run.bind_apply, fst_load]
    cases publishedAt location w with
    | error e => rfl
    | ok keys =>
      dsimp only
      cases keys.lookup id with
      | some key => rfl
      | none => rfl

/-- Two choices give a header the same exactly when they choose the same key for it. -/
theorem answer_eq_iff (location : KeySetLocation)
    (choose choose' : KeySet → String → Option KeyMaterial) (published : Except KeyError KeySet)
    (header : KeyHeader) :
    answer location choose published header = answer location choose' published header ↔
      ∀ keys id, published = .ok keys → header.requireKeyId = .ok id →
        choose keys id = choose' keys id := by
  unfold answer
  cases header.requireKeyId with
  | error e => exact iff_of_true rfl nofun
  | ok id =>
    cases published with
    | error e => exact iff_of_true rfl nofun
    | ok keys =>
      have hchoice : (∀ keys' id', (Except.ok keys : Except KeyError KeySet) = .ok keys' →
          (Except.ok id : Except KeyError String) = .ok id' →
          choose keys' id' = choose' keys' id') ↔ choose keys id = choose' keys id := by
        constructor
        · exact fun h => h keys id rfl rfl
        · rintro h _ _ ⟨⟩ ⟨⟩
          exact h
      rw [hchoice]
      dsimp only
      cases choose keys id with
      | some key => cases choose' keys id <;> simp
      | none => cases choose' keys id <;> simp

end KeySet

end BearerAuth

import Mathlib
import BearerAuth.Proofs.Token.Acceptance

namespace BearerAuth

namespace SignedVerifier

/-- The holder of a secret judges a token of the shortest digest under that secret. -/
theorem verify_of_secret {v : SignedVerifier} {secret : List UInt8} {raw : String}
    {token : ParsedToken} (w : Surroundings) (s : ProcessState)
    (hlocator : v.locator = .direct (.secret secret)) (hsecret : 32 ≤ secret.length)
    (hparse : ParsedToken.parse v.allowPadding raw = .ok token)
    (halgorithm : token.header.algorithm = .hs256) :
    v.verify raw w s =
      ((accept w.formMessages (v.expectation w.now) token (.secret secret), v), s) := by
  have hlocate : v.locator.locate token.header w s =
      ((.ok (.secret secret), v.locator), s) := by
    have hbits : ¬ secret.length * 8 < 256 := by omega
    have hkey : DirectKey.locate (.secret secret) token.header = .ok (.secret secret) := by
      unfold DirectKey.locate
      rw [halgorithm]
      exact if_neg hbits
    rw [hlocator]
    exact congrArg (fun found => ((found, KeyLocator.direct (.secret secret)), s)) hkey
  exact verify_of_locate hparse hlocate

/-- The holder of a secret accepts a token without padding that is signed with it by the shortest
digest and whose payload can be read. -/
theorem verify_eq_ok_of_secret {v : SignedVerifier} {secret : List UInt8} (w : Surroundings)
    (s : ProcessState) {raw header payload signature : String} {document : Json} {claims : Claims}
    (hlocator : v.locator = .direct (.secret secret)) (hsecret : 32 ≤ secret.length)
    (hsplit : Text.split '.' raw = [header, payload, signature]) (hpad : '=' ∉ raw.toList)
    (hdocument : ParsedToken.readDocument header = .ok document)
    (halgorithm : ParsedToken.readAlgorithm document.canonical = .ok .hs256)
    (hform : HeaderForm.accepts document = true) (hsignature : signature.isEmpty = false)
    (hverifies : KeyMaterial.verifies (.secret secret) .hs256 (header ++ "." ++ payload) signature =
      .ok true)
    (hread : readPayload w.formMessages (v.expectation w.now) payload = .ok claims) :
    (v.verify raw w s).1.1 = .ok claims := by
  let token := ParsedToken.ofSegments raw header payload signature document .hs256
  have hparse : ParsedToken.parse v.allowPadding raw = .ok token := by
    refine (ParsedToken.parse_eq_ok_iff v.allowPadding raw token).mpr ?_
    refine ⟨header, payload, signature, document, .hs256, hsplit, ?_, hdocument, halgorithm,
      hsignature, rfl⟩
    rw [ParsedToken.contains_padding_eq_false hpad]
    exact nofun
  have hpadded : token.padded = false := ParsedToken.contains_padding_eq_false hpad
  rw [verify_of_secret w s hlocator hsecret hparse rfl]
  exact (accept_unpadded_eq_ok_iff w.formMessages (v.expectation w.now) token (.secret secret)
    claims hpadded).mpr ⟨hform, hverifies, hread⟩

/-- So does one that allows padding, with padding after the token, if the claims are as expected. -/
theorem verify_padded_eq_ok_of_secret {v : SignedVerifier} {secret : List UInt8}
    (w : Surroundings) (s : ProcessState) {raw header payload signature : String}
    {document : Json} {claims : Claims} (hallow : v.allowPadding = true)
    (hlocator : v.locator = .direct (.secret secret)) (hsecret : 32 ≤ secret.length)
    (hsplit : Text.split '.' raw = [header, payload, signature]) (hpad : '=' ∉ signature.toList)
    (hdocument : ParsedToken.readDocument header = .ok document)
    (halgorithm : ParsedToken.readAlgorithm document.canonical = .ok .hs256)
    (hverifies : KeyMaterial.verifies (.secret secret) .hs256 (header ++ "." ++ payload) signature =
      .ok true)
    (hencodes : ParsedToken.Encodes payload claims)
    (hjudge : (v.expectation w.now).judgeClaims claims = .ok ()) :
    (v.verify (raw ++ "=") w s).1.1 = .ok claims := by
  let token := ParsedToken.ofSegments (raw ++ "=") header payload (signature ++ "=") document .hs256
  have hsplit' : Text.split '.' (raw ++ "=") = [header, payload, signature ++ "="] :=
    Text.split_append_eq_three hsplit (by decide)
  have hsignature : (signature ++ "=").isEmpty = false := by simp
  have hparse : ParsedToken.parse v.allowPadding (raw ++ "=") = .ok token :=
    (ParsedToken.parse_eq_ok_iff v.allowPadding (raw ++ "=") token).mpr ⟨header, payload,
      signature ++ "=", document, .hs256, hsplit', fun _ => hallow, hdocument, halgorithm,
      hsignature, rfl⟩
  rw [← withoutPadding_append hpad] at hverifies
  rw [verify_of_secret w s hlocator hsecret hparse rfl]
  exact (accept_padded_eq_ok_iff w.formMessages (v.expectation w.now) token (.secret secret) claims
    (ParsedToken.contains_append_padding raw)).mpr ⟨hverifies, hencodes, hjudge⟩

/-- A verifier that holds a secret of 32 characters and expects an issuer and an audience. -/
def holder : SignedVerifier where
  locator := .direct (.secret (Text.Utf8.encode "0123456789abcdef0123456789abcdef"))
  issuer := some "idp"
  audience := some "app"

/-- The holder when it allows padding. -/
def lenientHolder : SignedVerifier := { holder with allowPadding := true }

/-- A process without files, variables or a network, in September 2026. -/
def quiet : Surroundings := ⟨1790000000, default, {}, [], fun _ => .unreachable, {}⟩

/-- A token of the identity provider for the application, signed with the secret. -/
def pass : String :=
  "eyJhbGciOiJIUzI1NiJ9.eyJpc3MiOiJpZHAiLCJhdWQiOlsiYXBwIl0sImV4cCI6NDEwMjQ0NDgwMH0." ++
    "KmYJX3rv7dTfAODMJFO3l-C71bGGDJBDS3-xhNX9PcY"

def passClaims : Claims :=
  ⟨[("aud", .array [.string "app"]), ("exp", .number (.int 4102444800)), ("iss", .string "idp")]⟩

/-- What the payload of that token says, and the document that it is. -/
def passText : String := "\x7b\"iss\":\"idp\",\"aud\":[\"app\"],\"exp\":4102444800\x7d"

def passDocument : Json :=
  .object [("iss", .string "idp"), ("aud", .array [.string "app"]),
    ("exp", .number (.int 4102444800))]

theorem segmentBytes_pass : ParsedToken.segmentBytes
    "eyJpc3MiOiJpZHAiLCJhdWQiOlsiYXBwIl0sImV4cCI6NDEwMjQ0NDgwMH0" =
      .ok (Text.Utf8.encode passText) := by
  cbv

theorem document_pass : Json.documentOfBytes (Text.Utf8.encode passText) = .ok passDocument := by
  cbv

theorem encodes_pass : ParsedToken.Encodes
    "eyJpc3MiOiJpZHAiLCJhdWQiOlsiYXBwIl0sImV4cCI6NDEwMjQ0NDgwMH0" passClaims := by
  refine ⟨Text.Utf8.encode passText, segmentBytes_pass, ?_⟩
  rw [Json.readBytes, document_pass]
  rfl

theorem split_pass : Text.split '.' pass = ["eyJhbGciOiJIUzI1NiJ9",
    "eyJpc3MiOiJpZHAiLCJhdWQiOlsiYXBwIl0sImV4cCI6NDEwMjQ0NDgwMH0",
    "KmYJX3rv7dTfAODMJFO3l-C71bGGDJBDS3-xhNX9PcY"] := by
  cbv

theorem unpadded_pass : '=' ∉ pass.toList :=
  Text.not_mem_of_split_three split_pass (by decide) (by simp) (by simp) (by simp)

theorem length_secret : (Text.Utf8.encode "0123456789abcdef0123456789abcdef").length = 32 := by
  cbv

/-- A signature of the secret passes if it encodes the code of the message. -/
theorem verifies_of_code {message signature : String}
    (hcode : Base64.decode .urlSafe .absent (Text.Utf8.encode signature) =
      .ok (Crypto.listedHmac (Text.Utf8.encode "0123456789abcdef0123456789abcdef")
        (Text.Utf8.encode message))) :
    KeyMaterial.verifies (.secret (Text.Utf8.encode "0123456789abcdef0123456789abcdef")) .hs256
      message signature = .ok true :=
  KeyMaterial.verifies_of_hmac (length_secret.trans_le (by decide)) hcode

theorem verifies_pass : KeyMaterial.verifies
    (.secret (Text.Utf8.encode "0123456789abcdef0123456789abcdef")) .hs256
    ("eyJhbGciOiJIUzI1NiJ9" ++ "." ++ "eyJpc3MiOiJpZHAiLCJhdWQiOlsiYXBwIl0sImV4cCI6NDEwMjQ0NDgwMH0")
    "KmYJX3rv7dTfAODMJFO3l-C71bGGDJBDS3-xhNX9PcY" = .ok true :=
  verifies_of_code (by decide +kernel)

theorem verify_pass_of_expectation {v : SignedVerifier} (s : ProcessState)
    (hlocator : v.locator = holder.locator)
    (hexpectation : v.expectation quiet.now = ⟨1790000000, 0, some "idp", some "app"⟩) :
    (v.verify pass quiet s).1.1 = .ok passClaims := by
  have hread : readPayload {} (v.expectation quiet.now)
      "eyJpc3MiOiJpZHAiLCJhdWQiOlsiYXBwIl0sImV4cCI6NDEwMjQ0NDgwMH0" = .ok passClaims := by
    have hbytes := Base64.decode_encode_absent_eq .urlSafe
      "eyJpc3MiOiJpZHAiLCJhdWQiOlsiYXBwIl0sImV4cCI6NDEwMjQ0NDgwMH0" (by simp)
    have hdecoded := hbytes.trans segmentBytes_pass
    rw [hexpectation, readPayload_eq_ok_iff]
    exact ⟨_, passDocument, ⟨.seconds 4102444800, .absent, _, _⟩, hdecoded, document_pass, rfl,
      by decide, rfl⟩
  exact verify_eq_ok_of_secret quiet s hlocator length_secret.ge split_pass unpadded_pass
    ParsedToken.readDocument_hs256 ParsedToken.readAlgorithm_hs256 (by decide) (by decide)
    verifies_pass hread

theorem verify_pass (s : ProcessState) : (holder.verify pass quiet s).1.1 = .ok passClaims :=
  verify_pass_of_expectation s rfl rfl

/-- A token is accepted only if it has three segments, its header names a supported algorithm, there
is a key of the kind that the algorithm works with, that key has signed the text before the last
segment by that algorithm, and the claims are the object in the second segment. -/
theorem verify_sound (v : SignedVerifier) (raw : String) (w : Surroundings) (s : ProcessState)
    (claims : Claims) (h : (v.verify raw w s).1.1 = .ok claims) :
    ∃ header payload signature document algorithm key bytes,
      Text.split '.' raw = [header, payload, signature] ∧
      raw = header ++ "." ++ payload ++ "." ++ signature ∧
      ParsedToken.readDocument header = .ok document ∧
      document.canonical.member? "alg" = some (.string algorithm.name) ∧
      algorithm ∈ Algorithm.all ∧ Text.equalsIgnoringCase algorithm.name "none" = false ∧
      (v.locator.locate ⟨(document.canonical.member? "kid").bind Json.string?, algorithm⟩ w s).1.1 =
        .ok key ∧
      key.family = algorithm.family ∧
      Base64.decode .urlSafe .absent (Text.Utf8.encode (withoutPadding signature)) = .ok bytes ∧
      key.Signs algorithm (Text.Utf8.encode (header ++ "." ++ payload)) bytes ∧
      ParsedToken.Encodes payload claims := by
  obtain ⟨token, key, hparse, hlocate, haccept⟩ := (verify_eq_ok_iff v raw w s claims).mp h
  obtain ⟨hverifies, hencodes, -⟩ := signed_and_meets_of_accept hparse haccept
  obtain ⟨header, payload, signature, document, algorithm, hsplit, -, hdocument, halgorithm, -,
    rfl⟩ := (ParsedToken.parse_eq_ok_iff v.allowPadding raw token).mp hparse
  simp only [ParsedToken.ofSegments] at hlocate hverifies hencodes
  -- a key makes signatures of its own kind only, so what it has signed settles the kind
  obtain ⟨bytes, hbytes, hsigns⟩ := (KeyMaterial.verifies_eq_true_iff key algorithm
    (header ++ "." ++ payload) (withoutPadding signature)).mp hverifies
  have hraw : raw = header ++ "." ++ payload ++ "." ++ signature := by
    have hdot : String.singleton '.' = "." := by decide
    rw [Text.eq_of_split_eq_three hsplit, hdot]
  have hall : algorithm ∈ Algorithm.all ∧
      Text.equalsIgnoringCase algorithm.name "none" = false := by
    cases algorithm <;> decide
  have hname := (ParsedToken.readAlgorithm_eq_ok_iff document.canonical algorithm).mp halgorithm
  exact ⟨header, payload, signature, document, algorithm, key, bytes, hsplit, hraw, hdocument,
    hname, hall.1, hall.2, hlocate, hsigns.family_eq, hbytes, hsigns, hencodes⟩

/-- The token for the application is signed by a key of the kind of its algorithm. -/
theorem verify_sound_pass :
    (holder.verify pass quiet {}).1.1 = .ok passClaims ∧
      ∃ header payload signature algorithm key bytes,
        pass = header ++ "." ++ payload ++ "." ++ signature ∧
        KeyMaterial.family key = algorithm.family ∧
        key.Signs algorithm (Text.Utf8.encode (header ++ "." ++ payload)) bytes ∧
        ParsedToken.Encodes payload passClaims := by
  have h := verify_pass {}
  obtain ⟨header, payload, signature, _, algorithm, key, bytes, -, hraw, -, -, -, -, -, hfamily, -,
    hsigns, hencodes⟩ := verify_sound holder pass quiet {} passClaims h
  exact ⟨h, header, payload, signature, algorithm, key, bytes, hraw, hfamily, hsigns, hencodes⟩

end SignedVerifier

end BearerAuth

import Mathlib.Data.List.Chain
import BearerAuth.Proofs.Surroundings.Records

/-! What is asked of the network for a document: its address once at most, and after that only what
the replies redirect to. -/

namespace BearerAuth

/-- What is asked for a document, with the replies; at an address that is none, nothing is. -/
def Surroundings.exchangesFor (w : Surroundings) (url : String) : List Exchange :=
  match fetchAddress url with
  | .error _ => []
  | .ok start => (w.network.ask redirectLimit start).1

/-- The document at an address of the network at some moment, or why it cannot be had. -/
def Surroundings.documentAt (w : Surroundings) (url : String) : Except KeyError String :=
  (Run.fetchKeys url w {}).1

/-- A document is asked for at this address. -/
def IsAskedAt (url address : String) : Prop := ∃ shown, fetchAddress url = .ok (address, shown)

/-- The address that the reply to a request redirects to. -/
def Exchange.next? (exchange : Exchange) : Option String :=
  match exchange.reply with
  | .redirect location => location.fetchAddress.toOption.map Prod.fst
  | _ => none

/-- The requests for one document: the first is for its address, and each of the others is for the
address that the reply before it redirects to. -/
structure IsFetchOf (url : String) (asked : List Exchange) : Prop where
  start : ∃ first ∈ asked.head?, IsAskedAt url first.url
  follows : asked.IsChain fun before after => before.next? = some after.url
  bounded : asked.length ≤ redirectLimit + 1

/-- A request is followed by those that the replies redirect to, as many as are allowed. -/
theorem Network.ask_follows (network : Network) (allowed : Nat) (start : String × String) :
    ∃ rest, (network.ask allowed start).1 = ⟨start.1, network start.1⟩ :: rest ∧
      rest.length ≤ allowed ∧
      (⟨start.1, network start.1⟩ :: rest).IsChain
        fun before after => before.next? = some after.url := by
  induction allowed generalizing start with
  | zero => exact ⟨[], rfl, Nat.le_refl 0, .singleton _⟩
  | succ allowed ih =>
    obtain ⟨address, shown⟩ := start
    have hnone : ∃ rest : List Exchange, [⟨address, network address⟩] =
        (⟨address, network address⟩ : Exchange) :: rest ∧ rest.length ≤ allowed + 1 ∧
        ((⟨address, network address⟩ : Exchange) :: rest).IsChain
          fun before after => before.next? = some after.url :=
      ⟨[], rfl, Nat.zero_le _, .singleton _⟩
    simp only [ask]
    cases hreply : network address with
    | redirect location =>
      rw [hreply] at hnone
      dsimp only
      cases hlocation : location.fetchAddress with
      | error e => exact hnone
      | ok next =>
        -- what the redirect leads to is asked for as if it had been asked for at first
        obtain ⟨rest, hrest, hbound, hchain⟩ := ih next
        refine ⟨⟨next.1, network next.1⟩ :: rest, ?_, Nat.succ_le_succ hbound, ?_⟩
        · rw [← hrest]
        · refine List.isChain_cons_cons.mpr ⟨?_, hchain⟩
          simp only [Exchange.next?, hlocation]
          rfl
    | _ =>
      rw [hreply] at hnone
      exact hnone

/-- A document is asked for at an address of the network, and then where it is redirected to. -/
theorem exchangesFor_of_asked {url address : String} (h : IsAskedAt url address)
    (w : Surroundings) :
    IsFetchOf url (w.exchangesFor url) ∧
      ∃ rest, w.exchangesFor url = ⟨address, w.network address⟩ :: rest := by
  obtain ⟨shown, haddress⟩ := h
  obtain ⟨rest, hrest, hbound, hchain⟩ := w.network.ask_follows redirectLimit (address, shown)
  have hasked : w.exchangesFor url = ⟨address, w.network address⟩ :: rest := by
    unfold Surroundings.exchangesFor
    rw [haddress]
    exact hrest
  rw [hasked]
  refine ⟨⟨⟨_, rfl, shown, haddress⟩, hchain, ?_⟩, rest, rfl⟩
  rw [List.length_cons]
  exact Nat.succ_le_succ hbound

/-- What is asked for a document is nothing, or it begins at the address of the document. -/
theorem exchangesFor_cases (w : Surroundings) (url : String) :
    w.exchangesFor url = [] ∨ IsFetchOf url (w.exchangesFor url) := by
  cases haddress : fetchAddress url with
  | error e =>
    refine Or.inl ?_
    unfold Surroundings.exchangesFor
    rw [haddress]
  | ok start => exact Or.inr (exchangesFor_of_asked ⟨start.2, haddress⟩ w).1

/-- A reply that is no redirect is the end of the matter. -/
theorem Network.ask_of_final {network : Network} {start : String × String}
    (h : ∀ location, network start.1 ≠ .redirect location) (allowed : Nat) :
    network.ask allowed start =
      ([⟨start.1, network start.1⟩], (network start.1).document start.2) := by
  obtain ⟨address, shown⟩ := start
  cases allowed with
  | zero => rfl
  | succ allowed =>
    simp only [ask]

section Final

variable {url address shown : String} {w : Surroundings}
  (h : fetchAddress url = .ok (address, shown))
  (hfinal : ∀ location, w.network address ≠ .redirect location)
include h hfinal

theorem exchangesFor_of_final : w.exchangesFor url = [⟨address, w.network address⟩] := by
  unfold Surroundings.exchangesFor
  rw [h]
  exact congrArg Prod.fst (Network.ask_of_final hfinal redirectLimit)

/-- A document is what the reply at its address holds, unless it is redirected. -/
theorem Surroundings.documentAt_of_final :
    w.documentAt url =
      ((w.network address).document shown).mapError fun e => .fetch url e.message := by
  have hask : w.network.ask redirectLimit (address, shown) = _ :=
    Network.ask_of_final hfinal redirectLimit
  unfold Surroundings.documentAt Run.fetchKeys Run.fetch
  rw [h]
  change ((w.network.ask redirectLimit (address, shown)).2.mapError _) = _
  rw [hask]

end Final

/-- A document that can be had was asked for. -/
theorem isAskedAt_of_documentAt {w : Surroundings} {url document : String}
    (h : w.documentAt url = .ok document) : ∃ address, IsAskedAt url address := by
  cases haddress : fetchAddress url with
  | error e =>
    have hnone : w.documentAt url = .error (.fetch url e.message) := by
      unfold Surroundings.documentAt Run.fetchKeys Run.fetch
      rw [haddress]
      rfl
    exact nomatch hnone.symm.trans h
  | ok asked => exact ⟨asked.1, asked.2, haddress⟩

/-- Of requests that follow from one another, those for an address are made because it was
redirected to, but for the first. -/
theorem countP_url_le_of_isChain {asked : List Exchange}
    (h : asked.IsChain fun before after => before.next? = some after.url) (target : String) :
    asked.countP (fun exchange => exchange.url == target) ≤
      (asked.head?.toList.countP fun exchange => exchange.url == target) +
        asked.countP fun exchange => exchange.next? == some target := by
  induction asked with
  | nil => exact Nat.le_refl 0
  | cons first rest ih =>
    have hrest := ih h.tail
    -- the request after the first is for the target exactly if the first redirects to it
    have hnext : (rest.head?.toList.countP fun exchange => exchange.url == target) ≤
        [first].countP fun exchange => exchange.next? == some target := by
      cases rest with
      | nil => exact Nat.zero_le _
      | cons second rest =>
        have hlink := (List.isChain_cons_cons.mp h).1
        simp only [List.head?_cons, Option.toList_some, List.countP_singleton, hlink,
          Option.some_beq_some, Nat.le_refl]
    rw [List.countP_cons, List.countP_cons, List.head?_cons, Option.toList_some,
      List.countP_singleton]
    rw [List.countP_singleton] at hnext
    omega

namespace Run

/-- The request for a document depends on nothing that the process did, and changes nothing but what
was asked. -/
theorem fetchKeys_apply (url : String) (w : Surroundings) (s : ProcessState) :
    fetchKeys url w s =
      (w.documentAt url, { s with exchanges := s.exchanges ++ w.exchangesFor url }) := by
  unfold Surroundings.documentAt Surroundings.exchangesFor fetchKeys fetch
  cases fetchAddress url with
  | error e =>
    simp only [bind_apply, pure_apply, List.append_nil]
  | ok asked => rfl

/-- A computation asks for nothing but whole documents of some kind. -/
def Fetches (P : List Exchange → Prop) {α : Type} (x : Run α) : Prop :=
  ∀ w s, ∃ fetches : List (List Exchange), (x w s).2.exchanges = s.exchanges ++ fetches.flatten ∧
    ∀ asked ∈ fetches, P asked

end Run

end BearerAuth

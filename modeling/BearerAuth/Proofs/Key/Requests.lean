import BearerAuth.Proofs.Key.Cache
import BearerAuth.Proofs.Surroundings.Requests

namespace BearerAuth

open Run

/-- The keys at a location are asked for at this address; those in a file are not asked for. -/
def KeySetLocation.IsAskedAt (location : KeySetLocation) (address : String) : Prop :=
  ∃ url, location = .network url ∧ BearerAuth.IsAskedAt url.text address

/-- What is asked of the network for the keys at a location. -/
def KeySetLocation.exchangesFor (location : KeySetLocation) (w : Surroundings) : List Exchange :=
  match location with
  | .network url => w.exchangesFor url.text
  | .file _ => []

/-- The requests for the keys at a location of the network. -/
def KeySetLocation.IsFetch (location : KeySetLocation) (asked : List Exchange) : Prop :=
  ∃ url, location = .network url ∧ IsFetchOf url.text asked

/-- The keys at a location are fetched, or nothing is asked for them. -/
theorem KeySetLocation.exchangesFor_cases (location : KeySetLocation) (w : Surroundings) :
    location.exchangesFor w = [] ∨ location.IsFetch (location.exchangesFor w) := by
  cases location with
  | file path => exact Or.inl rfl
  | network url =>
    rcases BearerAuth.exchangesFor_cases w url.text with hnone | hfetch
    · exact Or.inl hnone
    · exact Or.inr ⟨url, rfl, hfetch⟩

/-- A fetch of the keys at a location begins where they are asked for. -/
theorem KeySetLocation.IsFetch.start {location : KeySetLocation} {asked : List Exchange}
    (h : location.IsFetch asked) : ∃ first ∈ asked.head?, location.IsAskedAt first.url := by
  obtain ⟨url, rfl, hfetch⟩ := h
  obtain ⟨first, hfirst, hasked⟩ := hfetch.start
  exact ⟨first, hfirst, url, rfl, hasked⟩

theorem KeySet.exchanges_load (location : KeySetLocation) (w : Surroundings) (s : ProcessState) :
    (load location w s).2.exchanges = s.exchanges ++ location.exchangesFor w := by
  unfold load readDocument KeySetLocation.exchangesFor
  cases location with
  | file path =>
    rw [List.append_nil]
    rfl
  | network url =>
    simp only [bind_apply, pure_apply, fetchKeys_apply]

namespace CachedKeySet

/-- A reload asks for the keys at the location, whatever comes of it. -/
theorem exchanges_reload (c : CachedKeySet) (id : String) (w : Surroundings) (s : ProcessState) :
    (c.reload id w s).2.exchanges = s.exchanges ++ c.location.exchangesFor w := by
  rw [← KeySet.exchanges_load]
  unfold reload
  simp only [bind_apply]
  cases (KeySet.load c.location w s).1 with
  | error e => rfl
  | ok keys =>
    simp only [bind_apply]
    cases lastOf keys id with
    | some key => rfl
    | none => rfl

theorem fetches_reload (c : CachedKeySet) (id : String) :
    (c.reload id).Fetches c.location.IsFetch := by
  intro w s
  have hreload := c.exchanges_reload id w s
  rcases c.location.exchangesFor_cases w with hnone | hfetch
  · rw [hnone, List.append_nil] at hreload
    exact ⟨[], by rw [hreload, List.flatten_nil, List.append_nil], nofun⟩
  · refine ⟨[c.location.exchangesFor w], by rw [hreload, List.flatten_singleton], ?_⟩
    intro asked hasked
    rw [List.mem_singleton.mp hasked]
    exact hfetch

/-- A look-up stays at its location and asks for nothing but the keys there. -/
theorem fetches_locate (c : CachedKeySet) (header : KeyHeader) :
    (c.locate header).Fetches c.location.IsFetch := by
  intro w s
  rcases c.locate_cases header w s with ⟨e, -, hlocate⟩ | ⟨id, key, used, -, -, hlocate⟩ |
    ⟨id, -, hlocate⟩
  · rw [hlocate]
    exact ⟨[], (List.append_nil _).symm, nofun⟩
  · rw [hlocate]
    exact ⟨[], (List.append_nil _).symm, nofun⟩
  · rw [hlocate]
    exact fetches_reload _ id w s

theorem location_locate (c : CachedKeySet) (header : KeyHeader) (w : Surroundings)
    (s : ProcessState) : (c.locate header w s).1.2.location = c.location := by
  rcases c.locate_cases header w s with ⟨e, -, hlocate⟩ | ⟨id, key, used, -, -, hlocate⟩ |
    ⟨id, -, hlocate⟩
  · rw [hlocate]
  · rw [hlocate]
  · rw [hlocate, reload_apply]
    dsimp only
    cases KeySet.publishedAt c.location w with
    | error e => rfl
    | ok keys => rfl

/-- Any number of look-ups ask for nothing but the keys at the location. -/
theorem fetches_dialogue (c : CachedKeySet) (moments : List (Surroundings × KeyHeader))
    (s : ProcessState) :
    ∃ loads : List (List Exchange),
      (dialogue locate c moments s).2.exchanges = s.exchanges ++ loads.flatten ∧
      ∀ load ∈ loads, c.location.IsFetch load := by
  let Q : CachedKeySet → ProcessState → Prop := fun c' _ => c'.location = c.location
  have hadds (c' : CachedKeySet) (header : KeyHeader) (w : Surroundings) (s' : ProcessState)
      (hstays : Q c' s') :
      ∃ loads : List (List Exchange),
        (c'.locate header w s').2.exchanges = s'.exchanges ++ loads.flatten ∧
        ∀ load ∈ loads, c.location.IsFetch load := by
    rw [← (hstays : c'.location = c.location)]
    exact c'.fetches_locate header w s'
  have hkeeps (c' : CachedKeySet) (header : KeyHeader) (w : Surroundings) (s' : ProcessState)
      (hstays : Q c' s') : Q (c'.locate header w s').1.2 (c'.locate header w s').2 :=
    (c'.location_locate header w s').trans hstays
  obtain ⟨loads, hloads, hkind⟩ := dialogue_appends_each hadds hkeeps moments (s := s) rfl
  refine ⟨loads, hloads, fun load hload => ?_⟩
  obtain ⟨-, -, -, hfetch⟩ := hkind load hload
  exact hfetch

end CachedKeySet

end BearerAuth

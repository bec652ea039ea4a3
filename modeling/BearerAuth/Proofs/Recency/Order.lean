import Mathlib.Data.Finset.Card
import Mathlib.Data.List.DropRight
import Mathlib.Data.List.Nodup
import BearerAuth.Proofs.Recency

/-! The order of a bounded map. Its keys begin with those that were written last, so a key is still
there exactly when fewer others were written after it than the map has room for. -/

namespace BearerAuth.RecencyMap

section Recent

/-- A key before all others. -/
def moveToFront (keys : List String) (key : String) : List String :=
  key :: keys.filter (· != key)

/-- The keys that were used, each once, the one that was used last first. -/
def recent (uses : List String) : List String := uses.foldl moveToFront []

theorem mem_moveToFront_iff (keys : List String) (key other : String) :
    other ∈ moveToFront keys key ↔ other = key ∨ other ∈ keys := by
  unfold moveToFront
  rw [List.mem_cons, List.mem_filter, bne_iff_ne]
  constructor
  · rintro (hsame | ⟨hmem, -⟩)
    · exact Or.inl hsame
    · exact Or.inr hmem
  · intro h
    by_cases hsame : other = key
    · exact Or.inl hsame
    · exact Or.inr ⟨h.resolve_left hsame, hsame⟩

theorem nodup_moveToFront {keys : List String} (h : keys.Nodup) (key : String) :
    (moveToFront keys key).Nodup := by
  apply List.nodup_cons.mpr
  constructor
  · intro hmem
    have hne : (key != key) = true := (List.mem_filter.mp hmem).2
    exact bne_iff_ne.mp hne rfl
  · exact h.filter _

/-- A key that is there already only changes its place. -/
theorem moveToFront_perm {keys : List String} (h : keys.Nodup) {key : String} (hkey : key ∈ keys) :
    (moveToFront keys key).Perm keys := by
  have herase : keys.erase key = keys.filter (· != key) := h.erase_eq_filter key
  unfold moveToFront
  rw [← herase]
  exact (List.perm_cons_erase hkey).symm

theorem recent_concat (uses : List String) (key : String) :
    recent (uses ++ [key]) = moveToFront (recent uses) key := by
  unfold recent
  rw [List.foldl_append, List.foldl_cons, List.foldl_nil]

theorem nodup_recent (uses : List String) : (recent uses).Nodup := by
  induction uses using List.reverseRecOn with
  | nil => exact List.nodup_nil
  | append_singleton uses key ih =>
    rw [recent_concat]
    exact nodup_moveToFront ih key

theorem mem_recent_iff (uses : List String) (key : String) : key ∈ recent uses ↔ key ∈ uses := by
  induction uses using List.reverseRecOn with
  | nil => exact Iff.rfl
  | append_singleton uses last ih =>
    rw [recent_concat, mem_moveToFront_iff, ih, List.mem_append, List.mem_singleton, or_comm]

/-- There are as many recent keys as different ones were used. -/
theorem length_recent (uses : List String) : (recent uses).length = uses.toFinset.card := by
  have hsame : (recent uses).toFinset = uses.toFinset := by
    ext key
    rw [List.mem_toFinset, List.mem_toFinset, mem_recent_iff]
  rw [← hsame, List.toFinset_card_of_nodup (nodup_recent uses)]

/-- After the last use of a key, what was used since stands before it. -/
theorem exists_recent_append (before : List String) {key : String} {after : List String}
    (h : key ∉ after) :
    ∃ older, recent (before ++ key :: after) = recent after ++ key :: older := by
  induction after using List.reverseRecOn with
  | nil => exact ⟨(recent before).filter (· != key), recent_concat before key⟩
  | append_singleton after last ih =>
    rw [List.mem_append, List.mem_singleton, not_or] at h
    obtain ⟨older, hbefore⟩ := ih h.1
    have hkept : (key :: older).filter (· != last) = key :: older.filter (· != last) :=
      List.filter_cons_of_pos (bne_iff_ne.mpr h.2)
    refine ⟨older.filter (· != last), ?_⟩
    rw [← List.cons_append, ← List.append_assoc, recent_concat, recent_concat, hbefore]
    unfold moveToFront
    rw [List.filter_append, hkept, List.cons_append]

/-- Of different keys one more has to be looked at where one of them is left out. -/
theorem take_filter_take {keys : List String} (h : keys.Nodup) (key : String) (n : Nat) :
    ((keys.take (n + 1)).filter (· != key)).take n = (keys.filter (· != key)).take n := by
  induction keys generalizing n with
  | nil => rfl
  | cons first keys ih =>
    obtain ⟨hfirst, hrest⟩ := List.nodup_cons.mp h
    rw [List.take_succ_cons]
    by_cases hsame : first = key
    · -- the key is left out here, and it is not among the others
      subst hsame
      have hdropped (rest : List String) (hrest : first ∉ rest) :
          (first :: rest).filter (· != first) = rest := by
        rw [List.filter_cons_of_neg (by simp), List.filter_eq_self]
        intro other hmem
        exact bne_iff_ne.mpr (ne_of_mem_of_not_mem hmem hrest)
      have htaken : first ∉ keys.take n := fun hmem => hfirst (List.mem_of_mem_take hmem)
      rw [hdropped _ htaken, hdropped _ hfirst, List.take_take, Nat.min_self]
    · have hkept (rest : List String) :
          (first :: rest).filter (· != key) = first :: rest.filter (· != key) :=
        List.filter_cons_of_pos (bne_iff_ne.mpr hsame)
      rw [hkept, hkept]
      cases n with
      | zero => rfl
      | succ n => rw [List.take_succ_cons, List.take_succ_cons, ih hrest]

/-- Keys that begin with some others begin with them still after a key is moved to the front, as far
as there is room. -/
theorem take_moveToFront_isPrefix {first keys : List String} (hfirst : first.Nodup) {capacity : Nat}
    (h : first.take capacity <+: keys) (key : String) :
    (moveToFront first key).take capacity <+: (moveToFront keys key).take capacity := by
  unfold moveToFront
  cases capacity with
  | zero => exact List.prefix_rfl
  | succ n =>
    rw [List.take_succ_cons, List.take_succ_cons, List.prefix_cons_inj, ← take_filter_take hfirst]
    exact (h.filter _).take n

/-- What is left out of a list does not come back when each element is kept once. -/
theorem eraseDups_filter {α : Type} [BEq α] [LawfulBEq α] (p : α → Bool) (xs : List α) :
    (xs.filter p).eraseDups = xs.eraseDups.filter p := by
  match xs with
  | [] => rfl
  | x :: xs =>
    -- the first element leaves itself out of the rest, which is where the recursion goes on
    have hrest := eraseDups_filter p (xs.filter fun y => !y == x)
    rw [List.eraseDups_cons]
    by_cases hx : p x = true
    · have hswap : (xs.filter p).filter (fun y => !y == x) =
          (xs.filter fun y => !y == x).filter p := List.filter_comm ..
      rw [List.filter_cons_of_pos hx, List.filter_cons_of_pos hx, List.eraseDups_cons, hswap,
        hrest]
    · have hkept : (xs.filter fun y => !y == x).filter p = xs.filter p := by
        rw [List.filter_filter]
        apply List.filter_congr
        intro y _
        by_cases hy : y = x
        · simp [hy, hx]
        · simp [hy]
      rw [List.filter_cons_of_neg hx, List.filter_cons_of_neg hx, ← hrest, hkept]
termination_by xs.length
decreasing_by exact Nat.lt_succ_of_le (List.length_filter_le ..)

/-- The recent keys are all that were used, in the order of their last uses. -/
theorem recent_eq_eraseDups (uses : List String) : recent uses = uses.reverse.eraseDups := by
  induction uses using List.reverseRecOn with
  | nil => rfl
  | append_singleton uses key ih =>
    rw [recent_concat, ih, List.reverse_append, List.reverse_singleton, List.singleton_append,
      List.eraseDups_cons, eraseDups_filter]
    rfl

/-- For the keys that there is room for it makes no difference whether the others are dropped before
a key is moved to the front. -/
theorem take_moveToFront_take {keys : List String} (h : keys.Nodup) (key : String) (n : Nat) :
    (moveToFront (keys.take n) key).take n = (moveToFront keys key).take n := by
  unfold moveToFront
  cases n with
  | zero => rfl
  | succ n => rw [List.take_succ_cons, List.take_succ_cons, take_filter_take h]

end Recent

section UsedAfter

variable {uses : List String} {key : String}

/-- What was used after the last use of a key. -/
def usedAfter (uses : List String) (key : String) : List String := uses.rtakeWhile (· != key)

theorem not_mem_usedAfter (uses : List String) (key : String) : key ∉ usedAfter uses key := by
  intro hmem
  have hne : (key != key) = true := List.mem_rtakeWhile_imp (p := (· != key)) hmem
  exact bne_iff_ne.mp hne rfl

/-- What was used after a key is among the other keys. -/
theorem toFinset_usedAfter_subset (uses : List String) (key : String) :
    (usedAfter uses key).toFinset ⊆ uses.toFinset.erase key := by
  intro other hother
  rw [List.mem_toFinset] at hother
  have hused : other ∈ uses := (List.rtakeWhile_suffix ..).mem hother
  exact Finset.mem_erase.mpr
    ⟨ne_of_mem_of_not_mem hother (not_mem_usedAfter uses key), List.mem_toFinset.mpr hused⟩

theorem usedAfter_append_cons (before : List String) {after : List String} (h : key ∉ after) :
    usedAfter (before ++ key :: after) key = after := by
  unfold usedAfter
  induction after using List.reverseRecOn with
  | nil => exact List.rtakeWhile_concat_neg _ before key (by simp)
  | append_singleton after last ih =>
    rw [List.mem_append, List.mem_singleton, not_or] at h
    have hlast : (last != key) = true := bne_iff_ne.mpr (Ne.symm h.2)
    rw [← List.cons_append, ← List.append_assoc, List.rtakeWhile_concat_pos _ _ last hlast, ih h.1]

/-- Some uses end with the last use of a key and what was used after it. -/
theorem exists_split_usedAfter (h : key ∈ uses) :
    ∃ before, uses = before ++ key :: usedAfter uses key := by
  obtain ⟨after, before, hsplit, hafter⟩ := List.eq_append_cons_of_mem (List.mem_reverse.mpr h)
  have huses : uses = before.reverse ++ key :: after.reverse := by
    rw [← List.reverse_reverse uses, hsplit, List.reverse_append, List.reverse_cons,
      List.append_assoc, List.singleton_append]
  refine ⟨before.reverse, ?_⟩
  rw [huses, usedAfter_append_cons _ (List.mem_reverse.not.mpr hafter)]

/-- What came before makes no difference to a key that was used since. -/
theorem usedAfter_append_of_mem (earlier : List String) (h : key ∈ uses) :
    usedAfter (earlier ++ uses) key = usedAfter uses key := by
  obtain ⟨before, hsplit⟩ := exists_split_usedAfter h
  have hwhole : earlier ++ uses = (earlier ++ before) ++ key :: usedAfter uses key := by
    rw [List.append_assoc, ← hsplit]
  rw [hwhole, usedAfter_append_cons _ (not_mem_usedAfter uses key)]

end UsedAfter

variable {capacity : Nat} {α : Type} (m : RecencyMap capacity α)

theorem keys_erase (key : String) : (m.erase key).keys = m.keys.filter (· != key) := by
  unfold keys erase
  rw [List.filter_map]
  rfl

theorem keys_put (key : String) (value : α) :
    (m.put key value).keys = (moveToFront m.keys key).take capacity := by
  unfold moveToFront
  rw [← keys_erase]
  exact List.map_take

/-- Of two values that are written for a key in turn, only the second is there afterwards. -/
theorem put_put (key : String) (value value' : α) :
    (m.put key value).put key value' = m.put key value' := by
  cases capacity with
  | zero => rfl
  | succ n =>
    have hkept : ((m.erase key).entries.take n).filter (·.1 != key) =
        (m.erase key).entries.take n := by
      apply List.filter_eq_self.mpr
      intro entry hmem
      exact (List.mem_filter.mp (List.mem_of_mem_take hmem)).2
    have herase : ((m.put key value).erase key).entries = (m.erase key).entries.take n := by
      unfold put erase
      rw [List.take_succ_cons, List.filter_cons_of_neg (by simp)]
      exact hkept
    have hput (m' : RecencyMap (n + 1) α) :
        m'.put key value' = ⟨(key, value') :: (m'.erase key).entries.take n⟩ := rfl
    rw [hput, hput, herase, List.take_take, Nat.min_self]

/-- The keys are those of which something is known. -/
theorem mem_keys_iff (key : String) : key ∈ m.keys ↔ ∃ value, m.peek? key = some value := by
  rw [← not_iff_not, not_exists]
  constructor
  · intro hmem value hpeek
    apply hmem
    obtain ⟨before, after, hentries, -⟩ := List.lookup_eq_some_iff.mp hpeek
    unfold keys
    rw [hentries, List.map_append, List.map_cons]
    exact List.mem_append_right _ List.mem_cons_self
  · intro hnone hmem
    obtain ⟨entry, hentry, rfl⟩ := List.mem_map.mp hmem
    have hpeek : m.peek? entry.1 = none := Option.eq_none_iff_forall_not_mem.mpr hnone
    have hne := List.lookup_eq_none_iff.mp hpeek entry hentry
    simp at hne

theorem putAll_concat (entries : List (String × α)) (entry : String × α) :
    m.putAll (entries ++ [entry]) = (m.putAll entries).put entry.1 entry.2 := by
  unfold putAll
  rw [List.foldl_append, List.foldl_cons, List.foldl_nil]

/-- A map is within its bounds as soon as something was written. -/
theorem length_keys_putAll_le {entries : List (String × α)} (h : entries ≠ []) :
    (m.putAll entries).keys.length ≤ capacity := by
  have hlast : m.putAll entries =
      (m.putAll entries.dropLast).put (entries.getLast h).1 (entries.getLast h).2 := by
    rw [← putAll_concat, List.dropLast_append_getLast]
  rw [hlast, keys, List.length_map]
  exact length_put_le ..

/-- A key that was there already takes the place of no other. -/
theorem mem_keys_put_of_mem {m : RecencyMap capacity α} (h : m.WellFormed) {key : String}
    (hkey : key ∈ m.keys) (value : α) (other : String) :
    other ∈ (m.put key value).keys ↔ other ∈ m.keys := by
  have hperm : (moveToFront m.keys key).Perm m.keys := moveToFront_perm h.distinct hkey
  have hlength : (moveToFront m.keys key).length ≤ capacity := by
    calc (moveToFront m.keys key).length = m.keys.length := hperm.length_eq
      _ = m.entries.length := List.length_map ..
      _ ≤ capacity := h.bounded
  rw [keys_put, List.take_of_length_le hlength]
  exact hperm.mem_iff

/-- So a new value for it is all that changes in what is known. -/
theorem peek?_put_of_mem {m : RecencyMap capacity α} (h : m.WellFormed) {key : String}
    (hkey : key ∈ m.keys) (value : α) (other : String) :
    (m.put key value).peek? other = if other = key then some value else m.peek? other := by
  have hsame := mem_keys_put_of_mem h hkey value other
  rw [mem_keys_iff, mem_keys_iff] at hsame
  cases hbefore : m.peek? other with
  | some found =>
    obtain ⟨found', hpeek⟩ := hsame.mpr ⟨found, hbefore⟩
    rw [hpeek]
    rcases peek?_of_put m hpeek with ⟨rfl, rfl⟩ | ⟨hne, hkept⟩
    · rw [if_pos rfl]
    · rw [if_neg hne, ← hbefore, hkept]
  | none =>
    have hne : other ≠ key := by
      rintro rfl
      obtain ⟨found, hpeek⟩ := (mem_keys_iff m other).mp hkey
      exact nomatch hbefore.symm.trans hpeek
    have hunknown : ¬ ∃ found, (m.put key value).peek? other = some found := by
      rw [hsame, hbefore]
      exact fun ⟨_, hfound⟩ => nomatch hfound
    rw [if_neg hne]
    exact Option.eq_none_iff_forall_ne_some.mpr fun found hpeek => hunknown ⟨found, hpeek⟩

/-- However many entries were there before, the keys begin with those of the entries that were
written since, the latest first. -/
theorem take_recent_isPrefix (entries : List (String × α)) :
    (recent (entries.map Prod.fst)).take capacity <+: (m.putAll entries).keys := by
  -- the induction is on the entries from the last one on, as they are written
  induction entries using List.reverseRecOn with
  | nil =>
    rw [List.map_nil, recent, List.foldl_nil, List.take_nil]
    exact List.nil_prefix
  | append_singleton entries entry ih =>
    rw [putAll_concat, keys_put, List.map_append, List.map_singleton, recent_concat]
    exact take_moveToFront_isPrefix (nodup_recent _) ih entry.1

/-- A key that was written is there as long as fewer others were written after it than there is room
for. -/
theorem mem_keys_putAll_iff {entries : List (String × α)} {key : String}
    (h : key ∈ entries.map Prod.fst) :
    key ∈ (m.putAll entries).keys ↔
      (usedAfter (entries.map Prod.fst) key).toFinset.card < capacity := by
  obtain ⟨before, hentries⟩ := exists_split_usedAfter h
  have hafter := not_mem_usedAfter (entries.map Prod.fst) key
  generalize usedAfter (entries.map Prod.fst) key = after at hentries hafter ⊢
  have hbegin := m.take_recent_isPrefix entries
  obtain ⟨older, hrecent⟩ := exists_recent_append before hafter
  rw [hentries, hrecent] at hbegin
  have hcount : (recent after).length = after.toFinset.card := length_recent after
  have hbefore : key ∉ recent after := fun hmem => hafter ((mem_recent_iff after key).mp hmem)
  constructor
  · intro hmem
    by_contra hfull
    -- there is room for none but the keys that were written after it
    have hroom : capacity ≤ (recent after).length := by omega
    rw [List.take_append_of_le_length hroom] at hbegin
    have hwritten : entries ≠ [] := by
      rintro rfl
      exact absurd h List.not_mem_nil
    have hlength : (m.putAll entries).keys.length ≤ ((recent after).take capacity).length := by
      rw [List.length_take, Nat.min_eq_left hroom]
      exact m.length_keys_putAll_le hwritten
    have hkeys : (recent after).take capacity = (m.putAll entries).keys :=
      hbegin.eq_of_length_le hlength
    rw [← hkeys] at hmem
    exact hbefore (List.mem_of_mem_take hmem)
  · intro hroom
    apply hbegin.subset
    rw [List.take_append, List.mem_append]
    right
    obtain ⟨n, hn⟩ : ∃ n, capacity - (recent after).length = n + 1 :=
      Nat.exists_eq_add_one.mpr (by omega)
    rw [hn, List.take_succ_cons]
    exact List.mem_cons_self

/-- An entry that was written is known as long as nothing else was written for its key, and fewer
other keys were written than there is room for. -/
theorem peek?_putAll_of_few {entries : List (String × α)} {key : String} {value : α}
    (hentry : (key, value) ∈ entries) (hsame : ∀ entry ∈ entries, entry.1 = key → entry.2 = value)
    (hfew : ((entries.map Prod.fst).toFinset.erase key).card < capacity) :
    (m.putAll entries).peek? key = some value := by
  -- only what was written after the key for the last time can push it out
  have hfewer := Finset.card_le_card (toFinset_usedAfter_subset (entries.map Prod.fst) key)
  have hkept : key ∈ (m.putAll entries).keys :=
    (m.mem_keys_putAll_iff (List.mem_map_of_mem hentry)).mpr (Nat.lt_of_le_of_lt hfewer hfew)
  obtain ⟨found, hpeek⟩ := (mem_keys_iff _ key).mp hkept
  rcases peek?_of_putAll m hpeek with hlast | ⟨hnone, -⟩
  · obtain ⟨before', after', hentries, -⟩ := List.lookup_eq_some_iff.mp hlast
    have hfound : (key, found) ∈ entries := by
      rw [← List.mem_reverse, hentries]
      exact List.mem_append_right _ List.mem_cons_self
    have hvalue : found = value := hsame (key, found) hfound rfl
    rw [hpeek, hvalue]
  · have hne := List.lookup_eq_none_iff.mp hnone (key, value) (List.mem_reverse.mpr hentry)
    simp at hne

/-- To read an entry is to write it once more. -/
theorem get_eq_put {m : RecencyMap capacity α} (h : m.WellFormed) {key : String} {value : α}
    (hpeek : m.peek? key = some value) : m.get key = (some value, m.put key value) := by
  have hlength : ((key, value) :: (m.erase key).entries).length ≤ capacity := by
    -- the key only changes its place, so nothing has to be dropped for it
    have hperm := moveToFront_perm h.distinct ((mem_keys_iff m key).mpr ⟨value, hpeek⟩)
    calc ((key, value) :: (m.erase key).entries).length = (moveToFront m.keys key).length := by
          unfold moveToFront
          rw [← keys_erase, keys, List.length_cons, List.length_cons, List.length_map]
      _ = m.keys.length := hperm.length_eq
      _ = m.entries.length := List.length_map ..
      _ ≤ capacity := h.bounded
  unfold get put
  rw [hpeek, List.take_of_length_le hlength]

end BearerAuth.RecencyMap

import Mathlib.Tactic.Common
import BearerAuth.Decimal.Binary64

/-! The binary number nearest to a natural. Below `2 ^ 53` it is the natural itself, and from there
on it does not fall below `2 ^ 53`, so comparing with a bound below that limit is exact. -/

namespace BearerAuth.Binary64

/-- The naturals below `2 ^ 53` are numbers of the format. -/
def exactLimit : Nat := 0x20000000000000

theorem divRound_one (n : Nat) : divRound n 1 = n := by
  simp [divRound, Nat.mod_one]

theorem div_le_divRound (num den : Nat) : num / den ≤ divRound num den := by
  unfold divRound
  dsimp only
  split
  · exact Nat.le_refl _
  · split <;> omega

theorem floorLog2_one {n : Nat} (hn : n ≠ 0) : floorLog2 n 1 = Nat.log2 n := by
  have hreached : 1 <<< Nat.log2 n ≤ n := by
    rw [Nat.one_shiftLeft]
    exact Nat.log2_self_le hn
  have hone : Nat.log2 1 = 0 := by decide
  simp [floorLog2, hone, hreached]

/-- The nearest number to a natural below the limit is that natural. -/
theorem ofNat_of_lt (negative : Bool) {n : Nat} (hn : n < exactLimit) :
    ∃ x, ofNat negative n = some x ∧ x.negative = negative ∧ x.ratio.1 = n * x.ratio.2 := by
  rcases Nat.eq_zero_or_pos n with rfl | hpos
  · refine ⟨zero negative, by simp [ofNat, ofRatio], rfl, ?_⟩
    cases negative <;> decide
  have hne : n ≠ 0 := Nat.pos_iff_ne_zero.mp hpos
  have hlog : Nat.log2 n < 53 := (Nat.log2_lt hne).mpr hn
  obtain ⟨k, hk⟩ : ∃ k, Nat.log2 n + k = 52 := ⟨52 - Nat.log2 n, by omega⟩
  have hexponent : max (floorLog2 n 1 - 52) minExponent = -(k : Int) := by
    rw [floorLog2_one hne, minExponent]
    omega
  -- the exponent is not positive, so the mantissa is the natural itself, moved to the left
  have hfull : n * 2 ^ k < 2 ^ 53 := by
    have hlt : n < 2 ^ (Nat.log2 n + 1) := Nat.lt_log2_self
    have hsum : Nat.log2 n + 1 + k = 53 := by omega
    calc
      n * 2 ^ k < 2 ^ (Nat.log2 n + 1) * 2 ^ k :=
        Nat.mul_lt_mul_of_pos_right hlt (Nat.two_pow_pos k)
      _ = 2 ^ 53 := by rw [← Nat.pow_add, hsum]
  have hmantissa : (if 0 ≤ -(k : Int) then divRound n (1 <<< (-(k : Int)).toNat)
      else divRound (n <<< (- -(k : Int)).toNat) 1) = n * 2 ^ k := by
    rcases Nat.eq_zero_or_pos k with rfl | hk0
    · simp [divRound_one]
    · rw [if_neg (by omega), divRound_one, Int.neg_neg, Int.toNat_natCast, Nat.shiftLeft_eq]
  have hnotfull : ¬ n * 2 ^ k = 0x20000000000000 := by omega
  refine ⟨⟨negative, n * 2 ^ k, -(k : Int)⟩, ?_, rfl, ?_⟩
  · simp only [ofNat, ofRatio, if_neg hne, hexponent, hmantissa, if_neg hnotfull]
    rw [if_neg]
    simp only [maxExponent]
    omega
  · rcases Nat.eq_zero_or_pos k with rfl | hk0
    · simp [ratio]
    · have hk0 : k ≠ 0 := Nat.pos_iff_ne_zero.mp hk0
      simp [ratio, hk0, Nat.one_shiftLeft]

/-- The nearest number to a natural from the limit on is not below the limit. -/
theorem le_floorAbs_of_le {negative : Bool} {n : Nat} {x : Binary64} (hn : exactLimit ≤ n)
    (h : ofNat negative n = some x) : x.negative = negative ∧ exactLimit ≤ x.floorAbs := by
  have hne : n ≠ 0 := by
    rintro rfl
    exact absurd hn (by decide)
  have hlog : 53 ≤ Nat.log2 n := (Nat.le_log2 hne).mpr hn
  obtain ⟨k, hk⟩ : ∃ k, Nat.log2 n = k + 53 := ⟨Nat.log2 n - 53, by omega⟩
  have hexponent : max (floorLog2 n 1 - 52) minExponent = ((k + 1 : Nat) : Int) := by
    rw [floorLog2_one hne, minExponent]
    omega
  -- the mantissa has its 53 bits before it is rounded, and rounding up keeps that many
  have hmantissa : 2 ^ 52 ≤ divRound n (1 <<< (k + 1)) := by
    have hquotient : 2 ^ 52 ≤ n / 1 <<< (k + 1) := by
      rw [Nat.one_shiftLeft, Nat.le_div_iff_mul_le (Nat.two_pow_pos _), ← Nat.pow_add]
      have hself : 2 ^ Nat.log2 n ≤ n := Nat.log2_self_le hne
      have hsum : 52 + (k + 1) = Nat.log2 n := by omega
      rwa [hsum]
    exact Nat.le_trans hquotient (div_le_divRound n _)
  have hscaled : ∀ m e : Nat, 2 ^ 52 ≤ m → 1 ≤ e →
      exactLimit ≤ floorAbs ⟨negative, m, (e : Int)⟩ := by
    intro m e hm he
    have hpow : 2 ^ 1 ≤ 2 ^ e := Nat.pow_le_pow_right (by decide) he
    have hproduct : 2 ^ 52 * 2 ^ 1 ≤ m * 2 ^ e := Nat.mul_le_mul hm hpow
    simp only [floorAbs, ratio, Int.natCast_nonneg, ↓reduceIte, Int.toNat_natCast,
      Nat.shiftLeft_eq, Nat.div_one]
    exact hproduct
  simp only [ofNat, ofRatio, if_neg hne, hexponent, Int.natCast_nonneg, ↓reduceIte,
    Int.toNat_natCast] at h
  by_cases hcarry : divRound n (1 <<< (k + 1)) = 0x20000000000000
  · simp only [hcarry, ↓reduceIte, Option.ite_none_left_eq_some, Option.some.injEq] at h
    obtain ⟨-, rfl⟩ := h
    exact ⟨rfl, hscaled 0x10000000000000 (k + 1 + 1) (by decide) (by omega)⟩
  · simp only [hcarry, ↓reduceIte, Option.ite_none_left_eq_some, Option.some.injEq] at h
    obtain ⟨-, rfl⟩ := h
    exact ⟨rfl, hscaled _ (k + 1) hmantissa (by omega)⟩

/-- The integer that a number is, if it has no fraction. -/
def toInt? (x : Binary64) : Option Int :=
  if x.isIntegral then some (if x.negative then -(x.floorAbs : Int) else x.floorAbs) else none

theorem ratio_pos (x : Binary64) : 0 < x.ratio.2 := by
  unfold ratio
  split
  · exact Nat.one_pos
  · rw [Nat.one_shiftLeft]
    exact Nat.two_pow_pos _

theorem floorAbs_eq_of_ratio {x : Binary64} {n : Nat} (h : x.ratio.1 = n * x.ratio.2) :
    x.floorAbs = n := by
  change x.ratio.1 / x.ratio.2 = n
  rw [h]
  exact Nat.mul_div_cancel n x.ratio_pos

theorem floorAbs_eq_zero_of_mantissa {x : Binary64} (h : x.mantissa = 0) : x.floorAbs = 0 := by
  apply floorAbs_eq_of_ratio
  unfold ratio
  split <;> simp [h]

theorem roundAbs_eq_floorAbs {x : Binary64} (h : x.isIntegral = true) :
    x.roundAbs = x.floorAbs := by
  have hmod : x.ratio.1 % x.ratio.2 = 0 := beq_iff_eq.mp h
  obtain ⟨n, hn⟩ := Nat.dvd_of_mod_eq_zero hmod
  have hpos := x.ratio_pos
  have htwice : n * (2 * x.ratio.2) = 2 * (x.ratio.2 * n) := by
    rw [Nat.mul_left_comm, Nat.mul_comm n]
  rw [floorAbs_eq_of_ratio (hn.trans (Nat.mul_comm _ n))]
  change (2 * x.ratio.1 + x.ratio.2) / (2 * x.ratio.2) = n
  -- half a denominator more does not reach the next natural
  apply Nat.div_eq_of_lt_le
  · rw [hn, htwice]
    omega
  · rw [hn, Nat.add_mul n 1, Nat.one_mul, htwice]
    omega

/-- An integer held within 64 bits is on the side of every bound below the limit on which the
integer itself is. -/
theorem toInt64_compare_of_toInt? {x : Binary64} {i : Int} (h : x.toInt? = some i) (bound : Int)
    (hbound : bound.natAbs < exactLimit) :
    (x.toInt64 < bound ↔ i < bound) ∧ (bound < x.toInt64 ↔ bound < i) := by
  have hlimit : exactLimit = 0x20000000000000 := rfl
  simp only [toInt?, Option.ite_none_right_eq_some, Option.some.injEq] at h
  obtain ⟨-, rfl⟩ := h
  unfold toInt64
  cases x.negative <;> simp only [Bool.false_eq_true, ↓reduceIte] <;> omega

/-- Below the limit an integer is its own nearest number. -/
theorem toInt64_ofInt_of_lt {i : Int} (hi : i.natAbs < exactLimit) :
    ∃ x, ofInt i = some x ∧ x.toInt64 = i := by
  have hlimit : exactLimit = 0x20000000000000 := rfl
  obtain ⟨x, hx, hsign, hratio⟩ := ofNat_of_lt (decide (i < 0)) hi
  refine ⟨x, hx, ?_⟩
  unfold toInt64
  rw [hsign, floorAbs_eq_of_ratio hratio]
  by_cases hneg : i < 0
  · simp only [hneg, decide_true, ↓reduceIte]
    omega
  · simp only [hneg, decide_false, Bool.false_eq_true, ↓reduceIte]
    omega

/-- Every integer of 64 bits has a nearest number. -/
theorem exists_ofInt {i : Int} (hi : i.natAbs < 0x10000000000000000) : ∃ x, ofInt i = some x := by
  rcases Nat.eq_zero_or_pos i.natAbs with hzero | hpos
  · exact ⟨zero (decide (i < 0)), by simp [ofInt, ofNat, ofRatio, hzero]⟩
  have hne : i.natAbs ≠ 0 := Nat.pos_iff_ne_zero.mp hpos
  have hlog : Nat.log2 i.natAbs < 64 := (Nat.log2_lt hne).mpr hi
  have hexponent : max (floorLog2 i.natAbs 1 - 52) minExponent ≤ 11 := by
    rw [floorLog2_one hne, minExponent]
    omega
  have hgreatest : maxExponent = 971 := rfl
  -- carried or not, the exponent is far from the greatest
  have hsmall : ∀ carried : Prop, ∀ (_ : Decidable carried) (m m' : Nat) (e : Int), e ≤ 11 →
      ¬ maxExponent < (if carried then (m, e + 1) else (m', e)).2 := by
    intro carried _ m m' e he
    split
    · dsimp only
      omega
    · dsimp only
      omega
  simp only [ofInt, ofNat, ofRatio, if_neg hne]
  rw [if_neg (hsmall _ _ _ _ _ hexponent)]
  exact ⟨_, rfl⟩

/-- The number nearest to an integer is on the side of every bound below the limit on which the
integer itself is. -/
theorem toInt64_compare_of_ofInt {x : Binary64} {i : Int} (h : ofInt i = some x) (bound : Int)
    (hbound : bound.natAbs < exactLimit) :
    (x.toInt64 < bound ↔ i < bound) ∧ (bound < x.toInt64 ↔ bound < i) := by
  have hlimit : exactLimit = 0x20000000000000 := rfl
  by_cases hi : i.natAbs < exactLimit
  · obtain ⟨y, hy, hvalue⟩ := toInt64_ofInt_of_lt hi
    cases h.symm.trans hy
    rw [hvalue]
    exact ⟨Iff.rfl, Iff.rfl⟩
  · -- both are beyond the limit, on the same side of zero
    obtain ⟨hsign, hfloor⟩ := le_floorAbs_of_le (Nat.le_of_not_lt hi) h
    unfold toInt64
    rw [hsign]
    by_cases hneg : i < 0
    · simp only [hneg, decide_true, ↓reduceIte]
      omega
    · simp only [hneg, decide_false, Bool.false_eq_true, ↓reduceIte]
      omega

end BearerAuth.Binary64

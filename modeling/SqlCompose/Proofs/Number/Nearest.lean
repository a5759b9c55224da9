import Mathlib.Tactic.Linarith
import Mathlib.Tactic.Ring
import SqlCompose.Proofs.Number.Rational

/-!
# Integers as doubles

An integer of at most 53 bits is a significand, and the double made of it stands for it. Of a longer
one the significand keeps the first 53 bits, rounded. No other significand is nearer, whatever its
exponent: with the same or a greater one it makes a multiple of the same power of two, and with a
smaller one it stays below the least number of that exponent.
-/

namespace SqlCompose.Binary64

/-- A quotient is rounded down if its rest is at most half of the denominator, and up only if it is
at least half. -/
theorem roundHalfEven_cases (num den : ℕ) :
    roundHalfEven num den = num / den ∧ 2 * (num % den) ≤ den ∨
      roundHalfEven num den = num / den + 1 ∧ den ≤ 2 * (num % den) := by
  rw [roundHalfEven]
  split
  · omega
  · split
    · omega
    · rcases Nat.mod_two_eq_zero_or_one (num / den) with hpar | hpar <;> omega

theorem roundHalfEven_one (n : ℕ) : roundHalfEven n 1 = n := by
  simp [roundHalfEven, Nat.mod_one]

/-- No other multiple of the denominator is nearer to the numerator than the one rounded to. -/
theorem roundHalfEven_nearest (num : ℕ) {den : ℕ} (hden : 0 < den) (j : ℕ) :
    |(roundHalfEven num den * den - num : ℤ)| ≤ |(j * den - num : ℤ)| := by
  have hsplit : den * (num / den) + num % den = num := Nat.div_add_mod num den
  have hrest : num % den < den := Nat.mod_lt num hden
  have hround := roundHalfEven_cases num den
  generalize num / den = q at hsplit hround
  generalize num % den = r at hsplit hrest hround
  have hnum : (num : ℤ) = q * den + r := by rw [← hsplit]; push_cast; ring
  -- A multiple lies at or below `q * den`, or at or above `(q + 1) * den`.
  have hj : (j * den : ℤ) ≤ q * den ∨ (q * den + den : ℤ) ≤ j * den := by
    rcases Nat.lt_or_ge q j with h | h
    · have := Nat.mul_le_mul_right den (show q + 1 ≤ j from h)
      refine .inr ?_
      rw [Nat.succ_mul] at this
      exact_mod_cast this
    · exact .inl (by exact_mod_cast Nat.mul_le_mul_right den h)
  generalize (j * den : ℤ) = multiple at hj ⊢
  rcases hround with ⟨hround, hle⟩ | ⟨hround, hle⟩
  · rw [hround, hnum, Int.abs_eq_natAbs, Int.abs_eq_natAbs]
    omega
  · rw [hround, hnum, Nat.cast_succ, add_mul, one_mul, Int.abs_eq_natAbs, Int.abs_eq_natAbs]
    omega

theorem exponentFor_one {k : ℕ} (hk : k ≠ 0) : exponentFor k 1 = (Nat.log2 k : ℤ) - 52 := by
  have hle : 2 ^ Nat.log2 k ≤ k := Nat.log2_self_le hk
  have hlog : Nat.log2 1 = 0 := by decide
  have hguess : Nat.pow 2 53 * (scaleDown k 1 (Nat.log2 k - 53)).2 ≤
      (scaleDown k 1 (Nat.log2 k - 53)).1 := by
    rw [scaleDown]
    split
    · rename_i he
      have hpow : Nat.log2 k = 53 + ((Nat.log2 k : ℤ) - 53).toNat := by omega
      rw [hpow, pow_add] at hle
      simpa using hle
    · rename_i he
      obtain ⟨t, ht⟩ : ∃ t, (-((Nat.log2 k : ℤ) - 53)).toNat = t := ⟨_, rfl⟩
      have hpow : 2 ^ 53 = 2 ^ Nat.log2 k * 2 ^ t := by
        rw [← pow_add]
        congr 1
        omega
      calc Nat.pow 2 53 * 1 = 2 ^ Nat.log2 k * 2 ^ t := by rw [mul_one, Nat.pow_eq, hpow]
        _ ≤ k * 2 ^ t := Nat.mul_le_mul_right _ hle
        _ = _ := by rw [ht, Nat.pow_eq]
  rw [exponentFor, hlog, Nat.cast_zero, sub_zero, if_pos hguess]
  omega

theorem ofMagnitude_bits (negative : Bool) {magnitude : ℕ} (h : magnitude < 2 ^ 63) :
    (ofMagnitude negative magnitude).negative = negative ∧
      (ofMagnitude negative magnitude).biasedExponent = magnitude / 2 ^ 52 ∧
      (ofMagnitude negative magnitude).fraction = magnitude % 2 ^ 52 := by
  have hbits : (ofMagnitude negative magnitude).bits.toNat =
      (if negative then 2 ^ 63 else 0) + magnitude := by
    simp only [ofMagnitude, Nat.pow_eq]
    rw [UInt64.toNat_ofNat', Nat.mod_eq_of_lt]
    split <;> omega
  rw [Binary64.negative, biasedExponent, fraction, hbits]
  simp only [Nat.pow_eq]
  cases negative with
  | true =>
    refine ⟨decide_eq_true ?_, ?_, ?_⟩ <;> simp <;> omega
  | false =>
    refine ⟨decide_eq_false ?_, ?_, ?_⟩ <;> simp <;> omega

/-- The bits of an exponent and a significand of 53 bits. A significand of `2 ^ 53` carries over. -/
theorem toRat_ofMagnitude (negative : Bool) {q m : ℕ} (hq : q < 2045) (hm : 2 ^ 52 ≤ m)
    (hm' : m ≤ 2 ^ 53) :
    (ofMagnitude negative (q * 2 ^ 52 + m)).isFinite ∧
      (ofMagnitude negative (q * 2 ^ 52 + m)).toRat =
        (if negative then -1 else 1) * (m * 2 ^ ((q : ℤ) - 1074)) := by
  have hbits : q * 2 ^ 52 + m < 2 ^ 63 := by omega
  obtain ⟨hnegative, hbiased, hfraction⟩ := ofMagnitude_bits negative hbits
  generalize ofMagnitude negative (q * 2 ^ 52 + m) = x at hnegative hbiased hfraction ⊢
  have hfinite : x.isFinite := by
    rw [isFinite, bne_iff_ne, hbiased]
    omega
  refine ⟨hfinite, ?_⟩
  rw [toRat, hnegative]
  congr 1
  have hbiased_ne : x.biasedExponent ≠ 0 := by omega
  rw [significand, exponent, if_neg hbiased_ne, if_neg hbiased_ne, hbiased, hfraction]
  rcases Nat.lt_or_ge m (2 ^ 53) with hlt | hge
  · have hsignificand : Nat.pow 2 52 + (q * 2 ^ 52 + m) % 2 ^ 52 = m := by
      rw [Nat.pow_eq]
      omega
    have hexponent : (((q * 2 ^ 52 + m) / 2 ^ 52 : ℕ) : ℤ) - 1075 = q - 1074 := by omega
    rw [hsignificand, hexponent]
  · obtain rfl : m = 2 ^ 53 := by omega
    have hsignificand : Nat.pow 2 52 + (q * 2 ^ 52 + 2 ^ 53) % 2 ^ 52 = 2 ^ 52 := by
      rw [Nat.pow_eq]
      omega
    have hexponent : (((q * 2 ^ 52 + 2 ^ 53) / 2 ^ 52 : ℕ) : ℤ) - 1075 = (q - 1074) + 1 := by
      omega
    rw [hsignificand, hexponent, zpow_add_one₀ two_ne_zero]
    push_cast
    ring

/-- The exponent bits and the significand of a double are as near to an integer as those of any
other double. -/
structure Nearest (k q m : ℕ) : Prop where
  least : 2 ^ 52 ≤ m
  greatest : m ≤ 2 ^ 53
  nearest : ∀ (s : ℕ) (f : ℤ), s < 2 ^ 53 →
    |(m * 2 ^ ((q : ℤ) - 1074) - k : ℚ)| ≤ |(s * 2 ^ f - k : ℚ)|

/-- An integer of at most 53 bits is its own significand, shifted. -/
theorem nearest_of_small {k t : ℕ} (hk : k ≠ 0) (ht : Nat.log2 k + t = 52) :
    Nearest k (Nat.log2 k + 1022) (k * 2 ^ t) := by
  have hle : 2 ^ Nat.log2 k ≤ k := Nat.log2_self_le hk
  have hlt : k < 2 ^ (Nat.log2 k + 1) := Nat.lt_log2_self
  refine ⟨?_, ?_, fun s f _ => ?_⟩
  · calc 2 ^ 52 = 2 ^ Nat.log2 k * 2 ^ t := by rw [← pow_add, ht]
      _ ≤ k * 2 ^ t := Nat.mul_le_mul_right _ hle
  · calc k * 2 ^ t ≤ 2 ^ (Nat.log2 k + 1) * 2 ^ t := Nat.mul_le_mul_right _ hlt.le
      _ = 2 ^ 53 := by rw [← pow_add]; congr 1; omega
  · have hexponent : ((Nat.log2 k + 1022 : ℕ) : ℤ) - 1074 = -(t : ℤ) := by omega
    have hexact : ((k * 2 ^ t : ℕ) : ℚ) * 2 ^ (-(t : ℤ)) = k := by
      rw [zpow_neg, zpow_natCast, Nat.cast_mul, Nat.cast_pow, Nat.cast_ofNat, mul_assoc,
        mul_inv_cancel₀ (by positivity), mul_one]
    rw [hexponent, hexact, sub_self, abs_zero]
    exact abs_nonneg _

/-- Of a longer integer the significand is the nearest multiple of a power of two. -/
theorem nearest_of_large {k t : ℕ} (hk : k ≠ 0) (ht : Nat.log2 k = 52 + t) :
    Nearest k (Nat.log2 k + 1022) (roundHalfEven k (2 ^ t)) := by
  have hle : 2 ^ 52 * 2 ^ t ≤ k := by
    rw [← pow_add, ← ht]
    exact Nat.log2_self_le hk
  have hlt : k < 2 ^ 53 * 2 ^ t := by
    have h := Nat.lt_log2_self (n := k)
    rw [ht, show 52 + t + 1 = 53 + t by omega, pow_add] at h
    exact h
  have hquotient : 2 ^ 52 ≤ k / 2 ^ t ∧ k / 2 ^ t < 2 ^ 53 :=
    ⟨(Nat.le_div_iff_mul_le (by positivity)).mpr hle,
      (Nat.div_lt_iff_lt_mul (by positivity)).mpr hlt⟩
  have hround := roundHalfEven_cases k (2 ^ t)
  generalize hm : roundHalfEven k (2 ^ t) = m at hround
  have hmultiple : ∀ j : ℕ, |(m * 2 ^ t - k : ℚ)| ≤ |(j * 2 ^ t - k : ℚ)| := by
    intro j
    have h := roundHalfEven_nearest k (Nat.two_pow_pos t) j
    rw [hm] at h
    exact_mod_cast h
  refine ⟨by omega, by omega, fun s f hs => ?_⟩
  have hexponent : ((Nat.log2 k + 1022 : ℕ) : ℤ) - 1074 = t := by omega
  rw [hexponent, zpow_natCast]
  rcases le_or_gt (t : ℤ) f with hf | hf
  · -- The other double is a multiple of the same power of two.
    obtain ⟨j, hj⟩ := Int.eq_ofNat_of_zero_le (sub_nonneg.mpr hf)
    have hother : (s * 2 ^ f : ℚ) = (s * 2 ^ j : ℕ) * 2 ^ t := by
      have hsum : f = (j : ℤ) + t := by omega
      rw [hsum, zpow_add₀ two_ne_zero, zpow_natCast, zpow_natCast]
      push_cast
      ring
    rw [hother]
    exact hmultiple _
  · -- The other double is too small: the least significand of this power of two lies between.
    have hsignificand : (s : ℚ) ≤ 2 ^ 53 := by exact_mod_cast hs.le
    have hpower : (2 : ℚ) ^ f ≤ 2 ^ ((t : ℤ) - 1) :=
      zpow_le_zpow_right₀ one_le_two (Int.le_sub_one_of_lt hf)
    have hother : (s * 2 ^ f : ℚ) ≤ 2 ^ 52 * 2 ^ t := by
      calc (s * 2 ^ f : ℚ) ≤ 2 ^ 53 * 2 ^ ((t : ℤ) - 1) :=
            mul_le_mul hsignificand hpower (by positivity) (by positivity)
        _ = 2 ^ 52 * 2 ^ t := by
          rw [zpow_sub_one₀ two_ne_zero, zpow_natCast]
          ring
    have hbetween : (2 ^ 52 * 2 ^ t : ℚ) ≤ k := by exact_mod_cast hle
    calc |(m * 2 ^ t - k : ℚ)| ≤ |((2 ^ 52 : ℕ) * 2 ^ t - k : ℚ)| := hmultiple _
      _ = k - 2 ^ 52 * 2 ^ t := by
        rw [abs_sub_comm, abs_of_nonneg]
        · push_cast; ring
        · push_cast; linarith
      _ ≤ k - s * 2 ^ f := by linarith
      _ ≤ |(s * 2 ^ f - k : ℚ)| := by rw [abs_sub_comm]; exact le_abs_self _

theorem nearestMagnitude_one {k : ℕ} (hk : k ≠ 0) (hlt : k < 2 ^ 64) :
    ∃ q m, q < 2045 ∧ Nearest k q m ∧ nearestMagnitude k 1 = q * 2 ^ 52 + m := by
  have hlog : Nat.log2 k < 64 := (Nat.log2_lt hk).mpr hlt
  obtain ⟨m, hm, hnearest⟩ : ∃ m,
      roundHalfEven (scaleDown k 1 (Nat.log2 k - 52)).1 (scaleDown k 1 (Nat.log2 k - 52)).2 = m ∧
        Nearest k (Nat.log2 k + 1022) m := by
    rcases Nat.lt_or_ge 52 (Nat.log2 k) with h | h
    · obtain ⟨t, ht⟩ : ∃ t, Nat.log2 k = 52 + t := ⟨Nat.log2 k - 52, by omega⟩
      have hexponent : (Nat.log2 k : ℤ) - 52 = t := by omega
      refine ⟨_, ?_, nearest_of_large hk ht⟩
      rw [hexponent, scaleDown, if_pos (Int.natCast_nonneg t), Int.toNat_natCast, one_mul,
        Nat.pow_eq]
    · obtain ⟨t, ht⟩ : ∃ t, Nat.log2 k + t = 52 := ⟨52 - Nat.log2 k, by omega⟩
      have hexponent : (Nat.log2 k : ℤ) - 52 = -t := by omega
      refine ⟨_, ?_, nearest_of_small hk ht⟩
      rw [hexponent, scaleDown]
      split
      · obtain rfl : t = 0 := by omega
        simp [roundHalfEven_one]
      · simp [roundHalfEven_one]
  refine ⟨_, m, by omega, hnearest, ?_⟩
  have hgreatest := hnearest.greatest
  have hinfinite : infiniteMagnitude = 2047 * 2 ^ 52 := rfl
  rw [nearestMagnitude, if_neg hk, exponentFor_one hk, hinfinite, Nat.pow_eq]
  dsimp only
  rw [hm]
  omega

theorem intCast_eq_sign_mul (n : ℤ) :
    (n : ℚ) = (if decide (n < 0) then -1 else 1) * n.natAbs := by
  rw [Nat.cast_natAbs, Int.cast_abs]
  by_cases hneg : n < 0
  · rw [if_pos (decide_eq_true hneg), abs_of_neg (Int.cast_lt_zero.mpr hneg), neg_one_mul, neg_neg]
  · rw [if_neg (by simpa using hneg), abs_of_nonneg (Int.cast_nonneg (not_lt.mp hneg)), one_mul]

/-- No number with a significand of 53 bits is nearer to an integer than the double made of it. -/
theorem ofInt_nearest {n : ℤ} (hn : n.natAbs < 2 ^ 64) :
    (ofInt n).isFinite ∧ ∀ s f : ℤ, s.natAbs < 2 ^ 53 →
      |(ofInt n).toRat - n| ≤ |(s * 2 ^ f - n : ℚ)| := by
  by_cases hzero : n = 0
  · have hsignificand : (ofInt 0).significand = 0 := by decide
    have hvalue : (ofInt 0).toRat = 0 := by
      rw [toRat, hsignificand, Nat.cast_zero, zero_mul, mul_zero]
    rw [hzero, hvalue, Int.cast_zero, sub_zero, abs_zero]
    exact ⟨by decide, fun _ _ _ => abs_nonneg _⟩
  · obtain ⟨q, m, hq, hnearest, hmagnitude⟩ :=
      nearestMagnitude_one (Int.natAbs_ne_zero.mpr hzero) hn
    obtain ⟨hfinite, hvalue⟩ :=
      toRat_ofMagnitude (decide (n < 0)) hq hnearest.least hnearest.greatest
    have hofInt : ofInt n = ofMagnitude (decide (n < 0)) (q * 2 ^ 52 + m) := by
      rw [ofInt, ofRatio, hmagnitude]
    have habs : (n.natAbs : ℚ) = |(n : ℚ)| := by rw [Nat.cast_natAbs, Int.cast_abs]
    rw [hofInt]
    refine ⟨hfinite, fun s f hs => ?_⟩
    calc |(ofMagnitude (decide (n < 0)) (q * 2 ^ 52 + m)).toRat - n|
        = |(m * 2 ^ ((q : ℤ) - 1074) - n.natAbs : ℚ)| := by
          have hone : |(if decide (n < 0) then -1 else 1 : ℚ)| = 1 := by split <;> simp
          rw [hvalue, intCast_eq_sign_mul, ← mul_sub, abs_mul, hone, one_mul]
      _ ≤ |(s.natAbs * 2 ^ f - n.natAbs : ℚ)| := hnearest.nearest _ _ hs
      _ = |(|(s * 2 ^ f : ℚ)| - |(n : ℚ)|)| := by
          have hpower : |(2 ^ f : ℚ)| = 2 ^ f := abs_of_nonneg (by positivity)
          rw [habs, abs_mul, hpower, Nat.cast_natAbs, Int.cast_abs]
      _ ≤ |(s * 2 ^ f - n : ℚ)| := abs_abs_sub_abs_le _ _

/-- No finite double is nearer to an integer than the one made of it. -/
theorem abs_toRat_ofInt_sub_le {n : ℤ} (hn : n.natAbs < 2 ^ 64) (x : Binary64) :
    |(ofInt n).toRat - n| ≤ |x.toRat - n| := by
  obtain ⟨s, hs, hvalue⟩ := x.exists_significand
  rw [hvalue]
  exact (ofInt_nearest hn).2 s x.exponent hs

/-- The double made of an integer of at most 53 bits stands for it. -/
theorem toRat_ofInt {n : ℤ} (hn : n.natAbs < 2 ^ 53) : (ofInt n).toRat = n := by
  have hle := (ofInt_nearest (n := n) (by omega)).2 n 0 hn
  rw [zpow_zero, mul_one, sub_self, abs_zero] at hle
  exact sub_eq_zero.mp (abs_nonpos_iff.mp hle)

end SqlCompose.Binary64

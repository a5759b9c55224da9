import Mathlib.Algebra.Order.Field.Power
import Mathlib.Algebra.Order.Field.Rat
import Mathlib.Data.Nat.Cast.Field
import Mathlib.Data.Rat.Cast.Order
import Mathlib.Tactic.Positivity
import SqlCompose.Number.Binary64

/-!
# Doubles as rational numbers

A finite double stands for its signed significand times a power of two. It is integral exactly if
that is an integer, which its integer part then is. Clamped to 64 bits the integer part is the
nearest one of those.
-/

namespace SqlCompose.Binary64

/-- The number that a finite double stands for. -/
def toRat (x : Binary64) : ℚ :=
  (if x.negative then -1 else 1) * (x.significand * 2 ^ x.exponent)

variable {x : Binary64}

/-- A significand has at most 53 bits. -/
theorem significand_lt (x : Binary64) : x.significand < 2 ^ 53 := by
  have hfraction : x.fraction < 2 ^ 52 := Nat.mod_lt _ (Nat.two_pow_pos 52)
  have hpow : Nat.pow 2 52 = 2 ^ 52 := rfl
  rw [significand]
  split <;> omega

theorem abs_toRat (x : Binary64) : |x.toRat| = x.significand * 2 ^ x.exponent := by
  have hnonneg : (0 : ℚ) ≤ x.significand * 2 ^ x.exponent := by positivity
  rw [toRat, abs_mul, abs_of_nonneg hnonneg]
  split <;> simp

/-- The signed significand of a double. -/
theorem exists_significand (x : Binary64) :
    ∃ s : ℤ, s.natAbs < 2 ^ 53 ∧ x.toRat = s * 2 ^ x.exponent := by
  refine ⟨(if x.negative then -1 else 1) * x.significand, ?_, ?_⟩
  · have hlt := x.significand_lt
    split <;> omega
  · rw [toRat, ← mul_assoc]
    push_cast
    rfl

/-- The exponent is a power of two to multiply with, or one to divide by. -/
theorem exponent_cases (x : Binary64) :
    ∃ k : ℕ, x.exponent = k ∨ x.exponent = -k ∧ x.exponent < 0 := by
  refine ⟨x.exponent.natAbs, ?_⟩
  omega

theorem isIntegral_iff_dvd {k : ℕ} (hf : x.isFinite) (he : x.exponent = -k)
    (hneg : x.exponent < 0) : x.isIntegral ↔ 2 ^ k ∣ x.significand := by
  have hk : (-x.exponent).toNat = k := by omega
  rw [isIntegral, hf, hk, decide_eq_false (by omega), Nat.dvd_iff_mod_eq_zero]
  simp

/-- An integral double stands for its integer part. -/
theorem toRat_eq_truncate (h : x.isIntegral) : x.toRat = x.truncate := by
  have hf : x.isFinite := (Bool.and_eq_true_iff.mp h).1
  have hmagnitude : (x.significand * 2 ^ x.exponent : ℚ) =
      ((if 0 ≤ x.exponent then x.significand * Nat.pow 2 x.exponent.toNat
        else x.significand / Nat.pow 2 (-x.exponent).toNat : ℕ) : ℚ) := by
    obtain ⟨k, hk | ⟨hk, hneg⟩⟩ := x.exponent_cases
    · rw [if_pos (by omega), hk, Int.toNat_natCast, zpow_natCast, Nat.cast_mul,
        Nat.pow_eq, Nat.cast_pow, Nat.cast_ofNat]
    · have hdvd := (isIntegral_iff_dvd hf hk hneg).mp h
      have hpow : Nat.pow 2 (-x.exponent).toNat = 2 ^ k := congrArg (2 ^ ·) (by omega)
      rw [if_neg (by omega), hpow, Nat.cast_div hdvd (by positivity), hk, zpow_neg, zpow_natCast,
        Nat.cast_pow, Nat.cast_ofNat, div_eq_mul_inv]
  rw [toRat, hmagnitude]
  unfold truncate
  dsimp only
  generalize (if 0 ≤ x.exponent then _ else _ : ℕ) = magnitude
  split <;> simp

/-- The doubles that are integral are those that stand for an integer. -/
theorem isIntegral_iff (hf : x.isFinite) : x.isIntegral ↔ ∃ n : ℤ, x.toRat = n := by
  refine ⟨fun h => ⟨_, toRat_eq_truncate h⟩, ?_⟩
  rintro ⟨n, hn⟩
  have habs : (x.significand * 2 ^ x.exponent : ℚ) = n.natAbs := by
    rw [← abs_toRat, hn, ← Int.cast_abs, Int.abs_eq_natAbs, Int.cast_natCast]
  obtain ⟨k, hk | ⟨hk, hneg⟩⟩ := x.exponent_cases
  · rw [isIntegral, hf, decide_eq_true (by omega)]
    rfl
  · refine (isIntegral_iff_dvd hf hk hneg).mpr ⟨n.natAbs, ?_⟩
    rw [hk, zpow_neg, zpow_natCast, ← div_eq_mul_inv, div_eq_iff (by positivity)] at habs
    rw [mul_comm]
    exact_mod_cast habs

/-- The clamped integer part is the nearest integer of 64 bits. -/
theorem toInt_toInt64Clamped (x : Binary64) :
    x.toInt64Clamped.toInt = max (-2 ^ 63) (min x.truncate (2 ^ 63 - 1)) := by
  have hmin : Int64.minValue.toInt = -2 ^ 63 := by decide
  have hmax : Int64.maxValue.toInt = 2 ^ 63 - 1 := by decide
  rw [toInt64Clamped, hmin, hmax, Int64.toInt_ofInt_of_le (by omega) (by omega)]

end SqlCompose.Binary64

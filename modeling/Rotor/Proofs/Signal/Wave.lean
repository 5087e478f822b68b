import Rotor.Proofs.Single.Bounds
import Rotor.Signal.Wave

/-!
# The sine between its zeros

The sine of an angle between zero and half a turn is computed by folding the angle into the half of
a turn where the wave is a hump, taking the parabola through the zeros and the peak, and correcting
it. The errors of all steps are small against the distance from the zeros, so the computed sine is
above zero and at most a little above one (`Signal.between_sine`).
-/

namespace Rotor

open Single
open Float.Model (UnpackedFloat)
open Float.Model.UnpackedFloat (Sign ExtendedMantissa decreaseExponent shiftToExponent)

section Whole

variable {value : Float32}

/-- The whole part of a number below one is zero. -/
theorem Single.roundToInt_of_lt_one {significand : Nat} {exponent : Int}
    (positive : 0 < significand) (small : (significand : ℚ) * 2 ^ exponent < 1) :
    UnpackedFloat.roundToInt .positive significand exponent = 0 := by
  have some : (1 : ℚ) ≤ significand := by exact_mod_cast positive
  have below : exponent < 0 := by
    by_contra notBelow
    have step : (1 : ℚ) ≤ 2 ^ exponent := one_le_zpow₀ one_le_two (not_lt.mp notBelow)
    nlinarith
  generalize countEq : (-exponent).toNat = count
  have exponentEq : exponent = -(count : Int) := by omega
  have kept : decreaseExponent significand exponent 0 = (significand, exponent) := by
    have none : exponent.toNat = 0 := by omega
    simp [decreaseExponent, none]
  have shift : (0 - exponent).toNat = count := by omega
  have bounds := ((stands_exact significand).shiftRight count).bounds.1
  simp only [UnpackedFloat.roundToInt, kept, shiftToExponent, shift, Sign.apply]
  have scaled : (significand : ℚ) / 2 ^ count < 1 := by
    rwa [exponentEq, zpow_neg, zpow_natCast, ← div_eq_mul_inv] at small
  have none : (ExtendedMantissa.ofMantissaAndAccuracy significand .exact >>> count).mantissa <
      1 := by
    exact_mod_cast bounds.trans_lt scaled
  omega

theorem Single.toUInt32_of_lt_one (finite : value.isFinite = true) (nonneg : 0 ≤ toRat value)
    (small : toRat value < 1) : value.toUInt32 = 0 := by
  have whole : (parts value).toInt 0 (UInt32.size - 1) = 0 := by
    change (parts value).isFinite = true at finite
    rw [toRat] at nonneg small
    rcases zero_or_finite finite with ⟨sign, shape⟩ | ⟨sign, significand, exponent, positive, shape⟩
    · rw [shape]
      rfl
    · rw [shape] at nonneg small ⊢
      cases sign with
      | negative =>
          have magnitude : (0 : ℚ) < significand * 2 ^ exponent := by positivity
          rw [number_negative] at nonneg
          linarith
      | positive =>
          rw [number_positive] at small
          exact roundToInt_of_lt_one positive small
  change UInt32.ofNatClamp ((parts value).toInt 0 (UInt32.size - 1)).toNat = 0
  rw [whole]
  rfl

theorem Single.floor_of_lt_one (finite : value.isFinite = true) (nonneg : 0 ≤ toRat value)
    (small : toRat value < 1) : floor value = 0 := by
  have notNegative : ¬value < 0 := by
    rw [lt_iff_toRat_lt finite between_zero.finite, not_lt]
    exact between_zero.le_high.trans nonneg
  have none : value.abs.toUInt32 = 0 :=
    toUInt32_of_lt_one (by rwa [isFinite_abs]) (by rw [toRat_abs]; exact abs_nonneg _)
      (by rwa [toRat_abs, abs_of_nonneg nonneg])
  have least : min (0 : UInt32) 0x7FFFFFFF = 0 := by decide
  have cut : truncate value = 0 := by
    simp only [truncate, notNegative, none, if_false, least, false_and]
    rfl
  simp [floor, cut, notNegative]

end Whole

namespace Signal

variable {angle turns folded parabola : Float32} {exact : ℚ}

/-- The angle in turns, less a quarter: both roundings are small against a turn. -/
theorem turns_near (finite : angle.isFinite = true) (low : 0 ≤ toRat angle)
    (high : toRat angle ≤ 22 / 7) :
    ((angle - pi / 2) * (0.31830987 / 2)).isFinite = true ∧
      |toRat ((angle - pi / 2) * (0.31830987 / 2)) -
        (toRat angle * (10680707 / 2 ^ 26) - 1 / 4)| ≤ 4 / 10 ^ 8 := by
  have quarterShape : parts (pi / 2) = .finite .positive 13176795 (-23) (by decide) := rfl
  have quarter : Between (13176795 / 2 ^ 23) (13176795 / 2 ^ 23) (pi / 2) :=
    between_of_parts quarterShape (by norm_num)
  have perTurnShape : parts (0.31830987 / 2 : Float32) =
      .finite .positive 10680707 (-26) (by decide) := rfl
  have perTurn : Between (10680707 / 2 ^ 26) (10680707 / 2 ^ 26) (0.31830987 / 2 : Float32) :=
    between_of_parts perTurnShape (by norm_num)
  have differenceFew : |toRat angle - toRat (pi / 2)| ≤ 1573 / 1000 := by
    rw [quarter.toRat_eq]
    exact abs_le.mpr ⟨by linarith, by linarith⟩
  have difference := rounded_sub finite quarter.finite (differenceFew.trans (by norm_num))
  have differenceError := difference.error_le
  rw [quarter.toRat_eq] at differenceError differenceFew
  have differenceNear := abs_le.mp differenceError
  have product := rounded_mul difference.finite perTurn.finite (by
    rw [perTurn.toRat_eq]
    exact abs_le.mpr ⟨by linarith, by linarith⟩)
  have productError := product.error_le
  rw [perTurn.toRat_eq] at productError
  have productFew : |toRat (angle - pi / 2) * (10680707 / 2 ^ 26)| ≤ 2504 / 10000 :=
    abs_le.mpr ⟨by linarith, by linarith⟩
  have productNear := abs_le.mp productError
  exact ⟨product.finite, abs_le.mpr ⟨by linarith, by linarith⟩⟩

/-- The fold takes the quarter off again. -/
theorem folded_near (finite : turns.isFinite = true) (low : 0 ≤ toRat turns + 1 / 4)
    (high : toRat turns ≤ 1 / 4) :
    (turns - (0.25 + Single.floor (turns + 0.25))).isFinite = true ∧
      |toRat (turns - (0.25 + Single.floor (turns + 0.25))) - (toRat turns - 1 / 4)| ≤
        3 / 10 ^ 8 := by
  have shape : parts (0.25 : Float32) = .finite .positive 8388608 (-25) (by decide) := rfl
  have quarter : Between (1 / 4) (1 / 4) (0.25 : Float32) := between_of_parts shape (by norm_num)
  have quarterIs := quarter.toRat_eq
  have moved := rounded_add finite quarter.finite (abs_le.mpr ⟨by linarith, by linarith⟩)
  rw [quarterIs] at moved
  have nonneg : 0 ≤ toRat (turns + 0.25) := moved.ge_of_ge onGrid_zero low
  have small : toRat (turns + 0.25) ≤ 1 / 2 :=
    moved.le_of_le ⟨1, -1, by decide, by decide, by norm_num⟩ (by linarith)
  have whole : (0.25 + 0 : Float32) = 0.25 := by decide +kernel
  rw [floor_of_lt_one moved.finite nonneg (by linarith), whole]
  have difference := rounded_sub finite quarter.finite (abs_le.mpr ⟨by linarith, by linarith⟩)
  rw [quarterIs] at difference
  have error := difference.error_le
  have few : |toRat turns - 1 / 4| ≤ 1 / 2 := abs_le.mpr ⟨by linarith, by linarith⟩
  exact ⟨difference.finite, by linarith⟩

/-- The factor of the parabola that vanishes at the far zero: two roundings, both small against
it. -/
theorem factor_near (finite : folded.isFinite = true)
    (low : -(1 / 2 - 69 / 10 ^ 7) ≤ toRat folded) (high : toRat folded ≤ 0) :
    (16 * (folded.abs - 0.5)).isFinite = true ∧
      16 * (1 - 1 / 2 ^ 22) * (1 / 2 + toRat folded) ≤ -toRat (16 * (folded.abs - 0.5)) ∧
      -toRat (16 * (folded.abs - 0.5)) ≤ 16 * (1 + 1 / 2 ^ 21) * (1 / 2 + toRat folded) := by
  have halfIs := between_half.toRat_eq
  have sixteen : Between 16 16 (16 : Float32) := between_ofNat (by decide)
  have magnitude : toRat folded.abs = -toRat folded := by
    rw [toRat_abs, abs_of_nonpos high]
  have difference := rounded_sub (isFinite_abs folded ▸ finite) between_half.finite
    (abs_le.mpr ⟨by linarith, by linarith⟩)
  rw [magnitude, halfIs] at difference
  have differenceSize : |-toRat folded - 1 / 2| = 1 / 2 + toRat folded := by
    rw [abs_of_neg (by linarith)]
    ring
  have differenceNear := abs_le.mp (difference.error_le_relative (by linarith))
  rw [differenceSize] at differenceNear
  have scaled := rounded_mul sixteen.finite difference.finite (by
    rw [sixteen.toRat_eq]
    exact abs_le.mpr ⟨by linarith, by linarith⟩)
  rw [sixteen.toRat_eq] at scaled
  generalize folded.abs - 0.5 = factor at differenceNear scaled ⊢
  have scaledSize : |16 * toRat factor| = -(16 * toRat factor) := abs_of_neg (by linarith)
  have scaledNear := abs_le.mp (scaled.error_le_relative (by linarith))
  rw [scaledSize] at scaledNear
  exact ⟨scaled.finite, by linarith, by linarith⟩

/-- The parabola through the zeros, away from them: no rounding brings it near zero, and it is not
much above its peak. -/
theorem between_parabola (finite : folded.isFinite = true)
    (low : -(1 / 2 - 69 / 10 ^ 7) ≤ toRat folded) (high : toRat folded ≤ -(97 / 10 ^ 7)) :
    Between (55 / 10 ^ 6) (1 + 1 / 10 ^ 6) (folded * (16 * (folded.abs - 0.5))) := by
  rcases factor_near finite low (by linarith) with ⟨factorFinite, factorLow, factorHigh⟩
  generalize 16 * (folded.abs - 0.5) = factor at factorFinite factorLow factorHigh ⊢
  -- The product of the distances from the zeros is least at the ends of the interval.
  have least : 344 / 10 ^ 8 ≤ -toRat folded * (1 / 2 + toRat folded) := by
    have ends : 0 ≤ (-toRat folded - 97 / 10 ^ 7) * (1 / 2 - 69 / 10 ^ 7 + toRat folded) :=
      mul_nonneg (by linarith) (by linarith)
    linarith
  have greatest : -toRat folded * (1 / 2 + toRat folded) ≤ 1 / 16 := by
    have peak := sq_nonneg (toRat folded + 1 / 4)
    linarith
  have distance : 0 ≤ -toRat folded := by linarith
  have above := mul_le_mul_of_nonneg_left factorLow distance
  have below := mul_le_mul_of_nonneg_left factorHigh distance
  have size : |toRat folded * toRat factor| = -toRat folded * -toRat factor := by
    rw [← neg_mul_neg, abs_of_pos (by linarith)]
  have result := rounded_mul finite factorFinite (by rw [size]; linarith)
  have near := abs_le.mp (result.error_le_relative (by rw [size]; linarith))
  rw [size] at near
  exact ⟨result.finite, by linarith, by linarith⟩

/-- The correction takes away less than a quarter of the parabola. -/
theorem between_corrected (between : Between (55 / 10 ^ 6) (1 + 1 / 10 ^ 6) parabola) :
    Between (11 / 2 ^ 18) (9 / 8) (parabola + (0.225 * parabola) * (parabola.abs - 1)) := by
  have shape : parts (0.225 : Float32) = .finite .positive 15099494 (-26) (by decide) := rfl
  have share : Between (15099494 / 2 ^ 26) (15099494 / 2 ^ 26) (0.225 : Float32) :=
    between_of_parts shape (by norm_num)
  have shareIs := share.toRat_eq
  have oneIs := between_one.toRat_eq
  rcases between with ⟨finite, low, high⟩
  have magnitude : toRat parabola.abs = toRat parabola := by
    rw [toRat_abs, abs_of_pos (by linarith)]
  have sizeOf : |toRat (0.225 : Float32) * toRat parabola| =
      15099494 / 2 ^ 26 * toRat parabola := by
    rw [shareIs, abs_of_pos (by linarith)]
  have scaled := rounded_mul share.finite finite (by rw [sizeOf]; linarith)
  have scaledNear := abs_le.mp (scaled.error_le_relative (by rw [sizeOf]; linarith))
  rw [sizeOf, shareIs] at scaledNear
  have depth := rounded_sub (isFinite_abs parabola ▸ finite) between_one.finite
    (abs_le.mpr ⟨by linarith, by linarith⟩)
  rw [magnitude, oneIs] at depth
  have depthLow : -1 ≤ toRat (parabola.abs - 1) :=
    depth.ge_of_ge ⟨-1, 0, by decide, by decide, by norm_num⟩ (by linarith)
  have depthHigh : toRat (parabola.abs - 1) ≤ 1 / 2 ^ 19 :=
    depth.le_of_le ⟨1, -19, by decide, by decide, by norm_num⟩ (by linarith)
  have scaledNonneg : 0 ≤ toRat (0.225 * parabola) := by linarith
  have lowProduct : -toRat (0.225 * parabola) ≤
      toRat (0.225 * parabola) * toRat (parabola.abs - 1) := by
    have raised := mul_le_mul_of_nonneg_left depthLow scaledNonneg
    linarith
  have highProduct : toRat (0.225 * parabola) * toRat (parabola.abs - 1) ≤ 1 / 2 ^ 19 := by
    have raised := mul_le_mul_of_nonneg_left depthHigh scaledNonneg
    linarith
  have product := rounded_mul scaled.finite depth.finite (abs_le.mpr ⟨by linarith, by linarith⟩)
  have correction := product.between (onGrid_toRat _).neg
    ⟨1, -19, by decide, by decide, by norm_num⟩ lowProduct highProduct
  exact (between_self finite).add correction ⟨11, -18, by decide, by decide, by norm_num⟩
    ⟨9, -3, by decide, by decide, by norm_num⟩ (by linarith) (by linarith) (by norm_num)
    (by norm_num)

/-- The sine of an angle between zero and half a turn, away from both, is above zero. -/
theorem between_sine (between : Between (4398 / 10 ^ 8) (3141531 / 10 ^ 6) angle) :
    Between (11 / 2 ^ 18) (9 / 8) (sine angle) := by
  rcases between with ⟨finite, low, high⟩
  rcases turns_near finite (by linarith) (by linarith) with ⟨turnsFinite, turnsError⟩
  have turnsNear := abs_le.mp turnsError
  rcases folded_near turnsFinite (by linarith) (by linarith) with ⟨foldedFinite, foldedError⟩
  have foldedNear := abs_le.mp foldedError
  exact between_corrected (between_parabola foldedFinite (by linarith) (by linarith))

end Signal

end Rotor

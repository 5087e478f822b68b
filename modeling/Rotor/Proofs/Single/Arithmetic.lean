import Rotor.Proofs.Single.Rounding

/-!
# Arithmetic

Sums, differences, products and quotients of finite values are rounded from the exact result, as
long as that is in range (`Single.rounded_add` and its siblings), and so are the values of words.
-/

namespace Rotor.Single

open Float.Model (Format UnpackedFloat totalExponent)
open Float.Model.UnpackedFloat (Sign Accuracy ExtendedMantissa decreaseExponent accuracyOfFraction
  divCore)

variable {first second : UnpackedFloat} {left right : Float32}

theorem cast_apply (sign : Sign) (whole : Int) :
    ((sign.apply whole : Int) : ℚ) = sign.apply 1 * whole := by
  cases sign <;> simp [Sign.apply]

theorem neg_apply (sign : Sign) (whole : Int) : (-sign).apply whole = -sign.apply whole := by
  cases sign
  · exact (Int.neg_neg whole).symm
  · rfl

theorem mul_apply (sign other : Sign) :
    (sign * other).apply 1 = sign.apply 1 * other.apply 1 := by
  cases sign <;> cases other <;> rfl

theorem div_apply (sign other : Sign) :
    ((sign / other).apply 1 : ℚ) = sign.apply 1 / other.apply 1 := by
  have whole : (sign / other).apply 1 * other.apply 1 = sign.apply 1 := by
    cases sign <;> cases other <;> rfl
  have some : (other.apply 1 : ℚ) ≠ 0 := by cases other <;> simp [Sign.apply]
  rw [eq_div_iff some]
  exact_mod_cast whole

/-- Parts in canonical form are rounded already. -/
theorem rounded_ofParts (canonical : Canonical first) (finite : first.isFinite = true) :
    Rounded (number first) (ofParts first) := by
  rcases zero_or_finite finite with ⟨sign, rfl⟩ | ⟨sign, significand, exponent, positive, rfl⟩
  · exact rounded_zero sign
  · have step : (0 : ℚ) < 2 ^ exponent := by positivity
    have spacing : Spacing ((significand : ℚ) * 2 ^ exponent) exponent := by
      rcases canonical with ⟨few, least, _, full⟩
      refine ⟨least, ?_, ?_⟩
      · gcongr
        exact_mod_cast few
      · rcases full with full | least
        · right
          gcongr
          exact_mod_cast full
        · exact .inl least
    have rounded := rounded_of_parts sign spacing (by simpa using (half_pos step).le)
      (by positivity) canonical rfl rfl
    rw [number, cast_apply, mul_assoc]
    exact rounded

section Sum

theorem decreaseExponent_snd {significand : Nat} {exponent target : Int} (le : target ≤ exponent) :
    (decreaseExponent significand exponent target).2 = target := by
  simp only [decreaseExponent]
  omega

theorem rounded_add_parts (canonical : Canonical first) (otherCanonical : Canonical second)
    (finite : first.isFinite = true) (otherFinite : second.isFinite = true)
    (few : |number first + number second| ≤ 2 ^ 127) :
    Rounded (number first + number second) (ofParts (first.add .binary32 second)) := by
  rcases zero_or_finite finite with ⟨sign, rfl⟩ | ⟨sign, significand, exponent, positive, rfl⟩
  · rw [number_zero, zero_add]
    rcases zero_or_finite otherFinite with ⟨other, rfl⟩ | ⟨other, significand, exponent, _, rfl⟩
    · simp only [number_zero, UnpackedFloat.add]
      split <;> exact rounded_zero _
    · exact rounded_ofParts otherCanonical otherFinite
  · rcases zero_or_finite otherFinite with
      ⟨other, rfl⟩ | ⟨other, otherSignificand, otherExponent, _, rfl⟩
    · rw [number_zero, add_zero]
      exact rounded_ofParts canonical finite
    · have aligned := decreaseExponent_mul significand exponent (min exponent otherExponent)
      have otherAligned :=
        decreaseExponent_mul otherSignificand otherExponent (min exponent otherExponent)
      rw [decreaseExponent_snd (min_le_left _ _)] at aligned
      rw [decreaseExponent_snd (min_le_right _ _)] at otherAligned
      simp only [UnpackedFloat.add, number] at few ⊢
      generalize (decreaseExponent significand exponent _).1 = digits at aligned ⊢
      generalize (decreaseExponent otherSignificand otherExponent _).1 = otherDigits
        at otherAligned ⊢
      have sum : (sign.apply significand : ℚ) * 2 ^ exponent +
          other.apply otherSignificand * 2 ^ otherExponent =
          ((sign.apply digits + other.apply otherDigits : Int) : ℚ) *
            2 ^ min exponent otherExponent := by
        rw [Int.cast_add, cast_apply sign digits, cast_apply other otherDigits,
          cast_apply sign significand, cast_apply other otherSignificand]
        push_cast
        rw [add_mul, mul_assoc, mul_assoc, mul_assoc, mul_assoc, aligned, otherAligned]
      rw [sum] at few ⊢
      exact rounded_normalize few .positive

/-- Adding finite values in range. -/
theorem rounded_add (finite : left.isFinite = true) (otherFinite : right.isFinite = true)
    (few : |toRat left + toRat right| ≤ 2 ^ 127) :
    Rounded (toRat left + toRat right) (left + right) :=
  rounded_add_parts (canonical_parts left) (canonical_parts right) finite otherFinite few

/-- A difference is the sum with the opposite number. -/
theorem subParts_eq (first second : UnpackedFloat) :
    first.sub .binary32 second = first.add .binary32 second.neg := by
  cases first <;> cases second <;>
    simp only [UnpackedFloat.sub, UnpackedFloat.add, UnpackedFloat.neg, neg_apply,
      Int.sub_eq_add_neg]

theorem number_neg (unpacked : UnpackedFloat) : number unpacked.neg = -number unpacked := by
  cases unpacked with
  | finite sign significand exponent positive =>
      simp only [UnpackedFloat.neg, number, neg_apply]
      push_cast
      ring
  | _ => exact neg_zero.symm

/-- Subtracting finite values in range. -/
theorem rounded_sub (finite : left.isFinite = true) (otherFinite : right.isFinite = true)
    (few : |toRat left - toRat right| ≤ 2 ^ 127) :
    Rounded (toRat left - toRat right) (left - right) := by
  have canonical : Canonical (parts right).neg := by
    have before := canonical_parts right
    cases shape : parts right with
    | finite sign significand exponent positive =>
        rw [shape] at before
        exact before
    | _ => trivial
  have negFinite : (parts right).neg.isFinite = true := by
    change (parts right).isFinite = true at otherFinite
    revert otherFinite
    cases parts right <;> exact id
  have difference : toRat left - toRat right = number (parts left) + number (parts right).neg := by
    rw [number_neg]
    exact sub_eq_add_neg _ _
  rw [difference] at few ⊢
  have rounded := rounded_add_parts (canonical_parts left) canonical finite negFinite few
  rwa [← subParts_eq] at rounded

end Sum

section Product

/-- A product of two significands has enough digits, since one of them is full unless both numbers
are below the least full one. -/
theorem rounded_mul_parts (canonical : Canonical first) (otherCanonical : Canonical second)
    (finite : first.isFinite = true) (otherFinite : second.isFinite = true)
    (few : |number first * number second| ≤ 2 ^ 127) :
    Rounded (number first * number second) (ofParts (first.mul .binary32 second)) := by
  rcases zero_or_finite finite with ⟨sign, rfl⟩ | ⟨sign, significand, exponent, positive, rfl⟩
  · rw [number_zero, zero_mul]
    rcases zero_or_finite otherFinite with ⟨other, rfl⟩ | ⟨other, significand, exponent, _, rfl⟩ <;>
      exact rounded_zero _
  · rcases zero_or_finite otherFinite with
      ⟨other, rfl⟩ | ⟨other, otherSignificand, otherExponent, otherPositive, rfl⟩
    · rw [number_zero, mul_zero]
      exact rounded_zero _
    · rcases canonical with ⟨_, _, _, full⟩
      rcases otherCanonical with ⟨_, _, _, otherFull⟩
      have product : (sign.apply significand : ℚ) * 2 ^ exponent *
          (other.apply otherSignificand * 2 ^ otherExponent) =
          (sign * other).apply 1 *
            ((significand * otherSignificand : Nat) * 2 ^ (exponent + otherExponent)) := by
        rw [mul_apply, cast_apply sign significand, cast_apply other otherSignificand,
          zpow_add₀ two_ne_zero]
        push_cast
        ring
      have room : exponent + otherExponent ≤ max ((significand * otherSignificand).log2 +
          (exponent + otherExponent) - 23) (-149) := by
        by_cases short : significand < 2 ^ 23 ∧ otherSignificand < 2 ^ 23
        · omega
        · have long : 2 ^ 23 ≤ significand * otherSignificand := by
            rcases not_and_or.mp short with long | long
            · exact (not_lt.mp long).trans (Nat.le_mul_of_pos_right _ otherPositive)
            · exact (not_lt.mp long).trans (Nat.le_mul_of_pos_left _ positive)
          have digits := (Nat.le_log2 (by positivity)).mpr long
          omega
      simp only [number] at few ⊢
      rw [product] at few ⊢
      rw [abs_apply_mul (by positivity)] at few
      exact rounded_roundWithAccuracy (stands_exact _) room few _

/-- Multiplying finite values in range. -/
theorem rounded_mul (finite : left.isFinite = true) (otherFinite : right.isFinite = true)
    (few : |toRat left * toRat right| ≤ 2 ^ 127) :
    Rounded (toRat left * toRat right) (left * right) :=
  rounded_mul_parts (canonical_parts left) (canonical_parts right) finite otherFinite few

end Product

section Quotient

theorem stands_div {numerator denominator : Nat} (positive : 0 < denominator) :
    Stands (.ofMantissaAndAccuracy (numerator / denominator)
      (accuracyOfFraction (numerator % denominator) denominator)) (numerator / denominator) := by
  have some : (0 : ℚ) < denominator := by exact_mod_cast positive
  have whole : (numerator : ℚ) / denominator =
      (numerator / denominator : Nat) + (numerator % denominator : Nat) / denominator := by
    rw [div_eq_iff some.ne', add_mul, div_mul_cancel₀ _ some.ne', mul_comm]
    exact_mod_cast (Nat.div_add_mod numerator denominator).symm
  have below : (numerator % denominator : Nat) / (denominator : ℚ) < 1 := by
    rw [div_lt_one some]
    exact_mod_cast Nat.mod_lt _ positive
  rw [whole]
  generalize numerator % denominator = rest at below ⊢
  simp only [accuracyOfFraction]
  split
  · next none => simp [ExtendedMantissa.ofMantissaAndAccuracy, Stands, none]
  · next left =>
    have restPos : (0 : ℚ) < rest / denominator := by
      have cast : (0 : ℚ) < rest := by exact_mod_cast Nat.pos_of_ne_zero left
      positivity
    rcases lt_trichotomy (2 * rest) denominator with less | equal | greater
    · have half : (rest : ℚ) / denominator < 1 / 2 := by
        rw [div_lt_div_iff₀ some two_pos]
        have cast : (2 * rest : ℚ) < denominator := by exact_mod_cast less
        linarith
      rw [compare_lt_iff_lt.mpr less]
      simp only [Stands, ExtendedMantissa.ofMantissaAndAccuracy]
      constructor <;> linarith
    · have half : (rest : ℚ) / denominator = 1 / 2 := by
        rw [div_eq_div_iff some.ne' two_ne_zero]
        have cast : (2 * rest : ℚ) = denominator := by exact_mod_cast equal
        linarith
      rw [compare_eq_iff_eq.mpr equal, half]
      rfl
    · have half : 1 / 2 < (rest : ℚ) / denominator := by
        rw [div_lt_div_iff₀ two_pos some]
        have cast : (denominator : ℚ) < 2 * rest := by exact_mod_cast greater
        linarith
      rw [compare_gt_iff_gt.mpr greater]
      simp only [Stands, ExtendedMantissa.ofMantissaAndAccuracy]
      constructor <;> linarith

/-- The numerator of a quotient is shifted so far that the quotient has enough digits. -/
theorem le_log2_div {significand other : Nat} (positive : 0 < significand)
    (otherPositive : 0 < other) (count : Nat) (enough : 24 + other.log2 ≤ significand.log2 + count) :
    23 ≤ ((significand <<< count) / other).log2 := by
  have dividend : 2 ^ 23 * other ≤ significand <<< count := by
    calc 2 ^ 23 * other
      _ ≤ 2 ^ 23 * 2 ^ (other.log2 + 1) := Nat.mul_le_mul_left _ Nat.lt_log2_self.le
      _ = 2 ^ (24 + other.log2) := by ring
      _ ≤ 2 ^ (significand <<< count).log2 :=
          Nat.pow_le_pow_right two_pos (enough.trans (le_log2_shiftLeft positive count))
      _ ≤ significand <<< count := Nat.log2_self_le (by
          rw [Nat.shiftLeft_eq]
          positivity)
  have quotient : 2 ^ 23 ≤ (significand <<< count) / other :=
    (Nat.le_div_iff_mul_le otherPositive).mpr dividend
  exact (Nat.le_log2 (by omega)).mpr quotient

theorem rounded_div_parts (finite : first.isFinite = true) (otherFinite : second.isFinite = true)
    (some : number second ≠ 0) (few : |number first / number second| ≤ 2 ^ 127) :
    Rounded (number first / number second) (ofParts (first.div .binary32 second)) := by
  rcases zero_or_finite otherFinite with
    ⟨other, rfl⟩ | ⟨other, otherSignificand, otherExponent, otherPositive, rfl⟩
  · exact absurd (number_zero other) some
  · rcases zero_or_finite finite with ⟨sign, rfl⟩ | ⟨sign, significand, exponent, positive, rfl⟩
    · rw [number_zero, zero_div]
      exact rounded_zero _
    · simp only [UnpackedFloat.div, divCore, Format.targetExponent, totalExponent,
        Format.minExponent, Format.mantissaBits]
      generalize targetEq : min (exponent - otherExponent) (max _ _) = target
      generalize countEq : (exponent - otherExponent - target).toNat = count
      have shifted : exponent - otherExponent = target + count := by omega
      have quotient : (sign.apply significand : ℚ) * 2 ^ exponent /
          (other.apply otherSignificand * 2 ^ otherExponent) =
          (sign / other).apply 1 *
            (((significand <<< count : Nat) / otherSignificand : ℚ) * 2 ^ target) := by
        have scale : (2 : ℚ) ^ exponent = 2 ^ count * 2 ^ target * 2 ^ otherExponent := by
          rw [← zpow_natCast, ← zpow_add₀ two_ne_zero, ← zpow_add₀ two_ne_zero]
          congr 1
          omega
        have step : (2 : ℚ) ^ otherExponent ≠ 0 := by positivity
        rw [div_apply, cast_apply sign significand, cast_apply other otherSignificand, scale,
          Nat.shiftLeft_eq]
        push_cast
        rw [← mul_assoc, mul_div_mul_right _ _ step]
        ring
      have room : target ≤ max (((significand <<< count) / otherSignificand).log2 + target - 23)
          (-149) := by
        rcases Int.lt_or_le (-149) target with greater | least
        · have digits := le_log2_div positive otherPositive count (by omega)
          omega
        · omega
      simp only [number] at few ⊢
      rw [quotient] at few ⊢
      rw [abs_apply_mul (by positivity)] at few
      exact rounded_roundWithAccuracy (stands_div otherPositive) room few _

/-- Dividing finite values in range by a number other than zero. -/
theorem rounded_div (finite : left.isFinite = true) (otherFinite : right.isFinite = true)
    (some : toRat right ≠ 0) (few : |toRat left / toRat right| ≤ 2 ^ 127) :
    Rounded (toRat left / toRat right) (left / right) :=
  rounded_div_parts finite otherFinite some few

end Quotient

section Words

theorem rounded_ofNat {count : Nat} (few : count < 2 ^ 32) :
    Rounded count (ofParts (.ofNat .binary32 count)) := by
  have magnitude : |((count : Int) : ℚ) * 2 ^ (0 : Int)| ≤ 2 ^ 127 := by
    have cast : (count : ℚ) < 2 ^ 32 := by exact_mod_cast few
    rw [zpow_zero, mul_one, Int.cast_natCast, abs_of_nonneg (by positivity)]
    linarith
  have rounded := rounded_normalize magnitude .positive
  rwa [zpow_zero, mul_one, Int.cast_natCast] at rounded

theorem rounded_ofUInt8 (word : UInt8) : Rounded word.toNat word.toFloat32 :=
  rounded_ofNat (word.toNat_lt.trans (by decide))

theorem rounded_ofUInt16 (word : UInt16) : Rounded word.toNat word.toFloat32 :=
  rounded_ofNat (word.toNat_lt.trans (by decide))

theorem rounded_ofUInt32 (word : UInt32) : Rounded word.toNat word.toFloat32 :=
  rounded_ofNat word.toNat_lt

end Words

end Rotor.Single

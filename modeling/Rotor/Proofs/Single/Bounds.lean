import Rotor.Proofs.Single.Arithmetic

/-!
# Bounds

A value is kept between two numbers by showing that it is finite and stands for a number between
them (`Single.Between`). Bounds on the operands of an operation give bounds on its result, as long
as the bounds on the result are numbers that values stand for: rounding does not pass these.
-/

namespace Rotor.Single

/-- A finite value that stands for a number between two others. -/
structure Between (low high : ℚ) (value : Float32) : Prop where
  finite : value.isFinite = true
  low_le : low ≤ toRat value
  le_high : toRat value ≤ high

variable {low high exact : ℚ} {lowLeft highLeft lowRight highRight : ℚ} {value left right : Float32}

theorem Rounded.between (rounded : Rounded exact value) (lowOnGrid : OnGrid low)
    (highOnGrid : OnGrid high) (lowLe : low ≤ exact) (leHigh : exact ≤ high) :
    Between low high value :=
  ⟨rounded.finite, rounded.ge_of_ge lowOnGrid lowLe, rounded.le_of_le highOnGrid leHigh⟩

theorem Between.mono {least greatest : ℚ} (between : Between low high value) (leastLe : least ≤ low)
    (leGreatest : high ≤ greatest) : Between least greatest value :=
  ⟨between.finite, leastLe.trans between.low_le, between.le_high.trans leGreatest⟩

theorem between_self (finite : value.isFinite = true) : Between (toRat value) (toRat value) value :=
  ⟨finite, le_rfl, le_rfl⟩

/-- The error against the number, where that is not near zero. -/
theorem Rounded.error_le_relative (rounded : Rounded exact value) (large : 1 / 2 ^ 126 ≤ |exact|) :
    |toRat value - exact| ≤ |exact| / 2 ^ 23 := by
  have error := rounded.error_le
  linarith

section Operations

variable (leftBetween : Between lowLeft highLeft left)
variable (rightBetween : Between lowRight highRight right)

include leftBetween rightBetween

theorem Between.add (lowOnGrid : OnGrid low) (highOnGrid : OnGrid high)
    (lowLe : low ≤ lowLeft + lowRight) (leHigh : highLeft + highRight ≤ high)
    (lowFew : -2 ^ 127 ≤ low) (highFew : high ≤ 2 ^ 127) : Between low high (left + right) := by
  rcases leftBetween with ⟨finite, leftLow, leftHigh⟩
  rcases rightBetween with ⟨otherFinite, rightLow, rightHigh⟩
  have rounded := rounded_add finite otherFinite (abs_le.mpr ⟨by linarith, by linarith⟩)
  exact rounded.between lowOnGrid highOnGrid (by linarith) (by linarith)

theorem Between.sub (lowOnGrid : OnGrid low) (highOnGrid : OnGrid high)
    (lowLe : low ≤ lowLeft - highRight) (leHigh : highLeft - lowRight ≤ high)
    (lowFew : -2 ^ 127 ≤ low) (highFew : high ≤ 2 ^ 127) : Between low high (left - right) := by
  rcases leftBetween with ⟨finite, leftLow, leftHigh⟩
  rcases rightBetween with ⟨otherFinite, rightLow, rightHigh⟩
  have rounded := rounded_sub finite otherFinite (abs_le.mpr ⟨by linarith, by linarith⟩)
  exact rounded.between lowOnGrid highOnGrid (by linarith) (by linarith)

theorem Between.mul (leftNonneg : 0 ≤ lowLeft) (rightNonneg : 0 ≤ lowRight)
    (lowOnGrid : OnGrid low) (highOnGrid : OnGrid high) (lowLe : low ≤ lowLeft * lowRight)
    (leHigh : highLeft * highRight ≤ high) (few : high ≤ 2 ^ 127) :
    Between low high (left * right) := by
  rcases leftBetween with ⟨finite, leftLow, leftHigh⟩
  rcases rightBetween with ⟨otherFinite, rightLow, rightHigh⟩
  have above : lowLeft * lowRight ≤ toRat left * toRat right :=
    mul_le_mul leftLow rightLow rightNonneg (leftNonneg.trans leftLow)
  have below : toRat left * toRat right ≤ highLeft * highRight :=
    mul_le_mul leftHigh rightHigh (rightNonneg.trans rightLow)
      (leftNonneg.trans (leftLow.trans leftHigh))
  have nonneg : 0 ≤ toRat left * toRat right := (mul_nonneg leftNonneg rightNonneg).trans above
  have rounded := rounded_mul finite otherFinite (by
    rw [abs_of_nonneg nonneg]
    linarith)
  exact rounded.between lowOnGrid highOnGrid (by linarith) (by linarith)

theorem Between.div (leftNonneg : 0 ≤ lowLeft) (rightPos : 0 < lowRight)
    (lowOnGrid : OnGrid low) (highOnGrid : OnGrid high) (lowLe : low ≤ lowLeft / highRight)
    (leHigh : highLeft / lowRight ≤ high) (few : high ≤ 2 ^ 127) :
    Between low high (left / right) := by
  rcases leftBetween with ⟨finite, leftLow, leftHigh⟩
  rcases rightBetween with ⟨otherFinite, rightLow, rightHigh⟩
  have positive : 0 < toRat right := rightPos.trans_le rightLow
  have nonneg : 0 ≤ toRat left := leftNonneg.trans leftLow
  have above : lowLeft / highRight ≤ toRat left / toRat right := by gcongr
  have below : toRat left / toRat right ≤ highLeft / lowRight := by
    gcongr
    exact nonneg.trans leftHigh
  have rounded := rounded_div finite otherFinite positive.ne' (by
    rw [abs_of_nonneg (div_nonneg nonneg positive.le)]
    linarith)
  exact rounded.between lowOnGrid highOnGrid (by linarith) (by linarith)

end Operations

section Constants

variable {significand : Nat} {exponent : Int} {positive : 0 < significand}

theorem Between.toRat_eq (between : Between exact exact value) : toRat value = exact :=
  le_antisymm between.le_high between.low_le

/-- A constant stands for the number that its parts say. -/
theorem between_of_parts (shape : parts value = .finite .positive significand exponent positive)
    (number : (significand : ℚ) * 2 ^ exponent = exact) : Between exact exact value := by
  have standsFor : toRat value = exact := by rw [toRat, shape, number_positive, number]
  refine ⟨?_, standsFor.ge, standsFor.le⟩
  change (parts value).isFinite = true
  rw [shape]
  rfl

theorem between_zero : Between 0 0 (0 : Float32) :=
  ⟨rfl, le_rfl, le_rfl⟩

theorem between_half : Between (1 / 2) (1 / 2) (0.5 : Float32) := by
  have shape : parts (0.5 : Float32) = .finite .positive 8388608 (-24) (by decide) := rfl
  exact between_of_parts shape (by norm_num)

theorem between_one : Between 1 1 (1 : Float32) := by
  have shape : parts (1 : Float32) = .finite .positive 8388608 (-23) (by decide) := rfl
  exact between_of_parts shape (by norm_num)

/-- A whole constant stands for the number that it is written as. -/
theorem between_ofNat {count : Nat} [count.AtLeastTwo] (few : count < 2 ^ 23) :
    Between (OfNat.ofNat count) (OfNat.ofNat count) (OfNat.ofNat count : Float32) := by
  have onGrid : OnGrid count := onGrid_natCast (few.trans (by decide))
  have size : (count : ℚ) ≤ 2 ^ 127 := by
    have cast : (count : ℚ) < 2 ^ 23 := by exact_mod_cast few
    linarith
  have word : Between count count count.toUInt64.toFloat32 := by
    have same : count.toUInt64.toNat = count := Nat.mod_eq_of_lt (few.trans (by decide))
    have rounded : Rounded count.toUInt64.toNat count.toUInt64.toFloat32 :=
      rounded_ofNat (by rw [same]; exact few.trans (by decide))
    rw [same] at rounded
    exact rounded.between onGrid onGrid le_rfl le_rfl
  -- A short constant is read as its digits times a power of ten.
  have scaled : (OfNat.ofNat count : Float32) = count.toUInt64.toFloat32 * 1 :=
    dif_pos (⟨few, by decide⟩ : count < 2 ^ 23 ∧ 0 ≤ 10)
  rw [scaled]
  exact word.mul between_one (Nat.cast_nonneg _) zero_le_one onGrid onGrid (mul_one _).ge
    (mul_one _).le size

end Constants

section Words

theorem between_ofUInt8 (word : UInt8) : Between word.toNat word.toNat word.toFloat32 := by
  have onGrid : OnGrid word.toNat := onGrid_natCast (word.toNat_lt.trans (by decide))
  exact (rounded_ofUInt8 word).between onGrid onGrid le_rfl le_rfl

theorem between_ofUInt16 (word : UInt16) : Between word.toNat word.toNat word.toFloat32 := by
  have onGrid : OnGrid word.toNat := onGrid_natCast (word.toNat_lt.trans (by decide))
  exact (rounded_ofUInt16 word).between onGrid onGrid le_rfl le_rfl

theorem between_ofUInt32 {word : UInt32} (low : OnGrid exact) (le : exact ≤ word.toNat) :
    Between exact (2 ^ 32) word.toFloat32 := by
  have few : (word.toNat : ℚ) ≤ 2 ^ 32 := by exact_mod_cast word.toNat_lt.le
  exact (rounded_ofUInt32 word).between low ⟨1, 32, by decide, by decide, by norm_num⟩ le few

end Words

end Rotor.Single

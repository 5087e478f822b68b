import Mathlib

/-!
# The numbers that single precision values stand for

A finite value stands for a rational number (`Single.toRat`): a sign, a significand and a power of
two. Values come in one form only (`Single.Canonical`), so that comparing exponents and then
significands compares the numbers (`Single.lt_iff_toRat_lt`). A NaN is below and above nothing.
-/

namespace Rotor.Single

open Float.Model (Format UnpackedFloat)
open Float.Model.UnpackedFloat (Sign)

/-- The sign, the significand and the exponent of a value. -/
def parts (value : Float32) : UnpackedFloat :=
  value.toModel.unpack

/-- The value that is put together from parts. -/
def ofParts (unpacked : UnpackedFloat) : Float32 :=
  .ofModel (.pack unpacked)

/-- The number that parts stand for, zero for an infinity and a NaN. -/
def number : UnpackedFloat → ℚ
  | .finite sign significand exponent _ => sign.apply significand * 2 ^ exponent
  | _ => 0

/-- The number that a value stands for, zero for an infinity and a NaN. -/
def toRat (value : Float32) : ℚ :=
  number (parts value)

/-- The form of the parts of a value: the significand has 24 digits, or fewer where the exponent is
the least one. -/
def Canonical : UnpackedFloat → Prop
  | .finite _ significand exponent _ =>
      significand < 2 ^ 24 ∧ -149 ≤ exponent ∧ exponent ≤ 104 ∧
        (2 ^ 23 ≤ significand ∨ exponent = -149)
  | _ => True

theorem canonical_zero (sign : Sign) : Canonical (.zero sign) := trivial

section Packing

/-- The leading digit of a significand is not stored. -/
theorem toNat_leading_append {width : Nat} (fraction : BitVec width) :
    (1#1 ++ fraction).toNat = 2 ^ width + fraction.toNat := by
  rw [BitVec.toNat_append, Nat.or_comm]
  simpa [Nat.shiftLeft_eq, Nat.add_comm] using Nat.or_two_pow_eq_add_of_lt fraction.isLt

theorem canonical_parts (value : Float32) : Canonical (parts value) := by
  simp only [parts, Float32.Model.unpack, UnpackedFloat.unpack]
  generalize value.toModel.toBits.toBitVec = bits
  have fractionLt : (@UnpackedFloat.unpackMantissa .binary32 bits).toNat < 2 ^ 23 :=
    BitVec.isLt _
  have biasedLt : (@UnpackedFloat.unpackExponent .binary32 bits).toNat < 2 ^ 8 :=
    BitVec.isLt _
  have bias : Format.binary32.exponentBias = 127 := rfl
  split
  · split <;> trivial
  · next notLast =>
    have biasedNe : (@UnpackedFloat.unpackExponent .binary32 bits).toNat ≠ 255 :=
      fun last => notLast (BitVec.eq_of_toNat_eq last)
    split
    · next least =>
      split
      · trivial
      · simp only [Canonical, least, bias, BitVec.toNat_ofNat]
        omega
    · next notLeast =>
      have biasedPos : (@UnpackedFloat.unpackExponent .binary32 bits).toNat ≠ 0 :=
        fun zero => notLeast (BitVec.eq_of_toNat_eq zero)
      simp only [Canonical, toNat_leading_append, bias]
      omega

section Finite

variable {sign : Sign} {significand : Nat} {exponent : Int} {positive : 0 < significand}

/-- A significand without its leading digit is packed with the exponent field zero. -/
theorem parts_ofParts_of_lt (short : significand < 2 ^ 23) :
    parts (ofParts (.finite sign significand (-149) positive)) =
      .finite sign significand (-149) positive := by
  have bias : Format.binary32.exponentBias = 127 := rfl
  have field : ((-149 : Int) + (127 : Nat) + (23 : Nat)).toNat = 1 := rfl
  have digits : ¬significand.log2 + 1 = Format.binary32.mantissaBits := by
    have log := (Nat.log2_lt (by omega)).mpr short
    simp only [Format.mantissaBits]
    omega
  have fraction : (BitVec.ofNat 23 significand).toNat = significand := by
    rw [BitVec.toNat_ofNat, Nat.mod_eq_of_lt short]
  have fractionNe : BitVec.ofNat 23 significand ≠ 0#23 := by
    intro zero
    rw [zero, BitVec.toNat_zero] at fraction
    omega
  simp only [parts, ofParts, Float32.Model.unpack, Float32.Model.pack, UnpackedFloat.pack, bias,
    field]
  rw [if_neg (by decide), if_neg digits]
  simp [UnpackedFloat.unpack, fractionNe, fraction, bias]

/-- A significand with all 24 digits is packed without the leading one. -/
theorem parts_ofParts_of_le (significandLt : significand < 2 ^ 24) (long : 2 ^ 23 ≤ significand)
    (leastLe : -149 ≤ exponent) (exponentLe : exponent ≤ 104) :
    parts (ofParts (.finite sign significand exponent positive)) =
      .finite sign significand exponent positive := by
  have bias : Format.binary32.exponentBias = 127 := rfl
  have digits : significand.log2 + 1 = Format.binary32.mantissaBits := by
    have log : significand.log2 = 23 := (Nat.log2_eq_iff (by omega)).mpr ⟨long, significandLt⟩
    simp only [Format.mantissaBits, log]
  simp only [parts, ofParts, Float32.Model.unpack, Float32.Model.pack, UnpackedFloat.pack, bias]
  generalize stored : (exponent + (127 : Nat) + (23 : Nat)).toNat = biased
  have biasedEq : (biased : Int) = exponent + 150 := by omega
  have field : (BitVec.ofNat 8 biased).toNat = biased := by
    rw [BitVec.toNat_ofNat, Nat.mod_eq_of_lt (by omega)]
  have notLast : BitVec.ofNat 8 biased ≠ 255#8 := by
    intro last
    rw [last, BitVec.toNat_ofNat] at field
    omega
  have notLeast : BitVec.ofNat 8 biased ≠ 0#8 := by
    intro zero
    rw [zero, BitVec.toNat_zero] at field
    omega
  have fraction : (1#1 ++ BitVec.ofNat 23 significand).toNat = significand := by
    rw [toNat_leading_append, BitVec.toNat_ofNat]
    omega
  rw [if_neg (by omega : ¬2 ^ 8 ≤ biased + 1), if_pos digits]
  simp [UnpackedFloat.unpack, notLast, notLeast, fraction, field, bias]
  omega

end Finite

/-- Parts in canonical form are the parts of the value that they make. -/
theorem parts_ofParts {unpacked : UnpackedFloat} (canonical : Canonical unpacked) :
    parts (ofParts unpacked) = unpacked := by
  cases unpacked with
  | infinity sign => cases sign <;> rfl
  | notANumber => rfl
  | zero sign => cases sign <;> rfl
  | finite sign significand exponent positive =>
      rcases canonical with ⟨significandLt, leastLe, exponentLe, full⟩
      rcases Nat.lt_or_ge significand (2 ^ 23) with short | long
      · have least : exponent = -149 := full.resolve_left (by omega)
        subst least
        exact parts_ofParts_of_lt short
      · exact parts_ofParts_of_le significandLt long leastLe exponentLe

end Packing

section Order

variable {first second : UnpackedFloat} {low high : Float32}

/-- A digit more in the significand is worth one in the exponent. -/
theorem scaled_le_of_lt {exponent otherExponent : Int} (less : exponent < otherExponent) :
    (2 : ℚ) ^ 24 * 2 ^ exponent ≤ 2 ^ 23 * 2 ^ otherExponent := by
  calc (2 : ℚ) ^ 24 * 2 ^ exponent
    _ = 2 ^ 23 * 2 ^ (exponent + 1) := by
        rw [zpow_add_one₀ two_ne_zero]
        ring
    _ ≤ 2 ^ 23 * 2 ^ otherExponent := by
        gcongr
        · exact one_le_two
        · omega

/-- Among numbers in canonical form the exponent decides before the significand. -/
theorem mul_zpow_lt_of_exponent_lt {significand other : Nat} {exponent otherExponent : Int}
    (significandLt : significand < 2 ^ 24) (full : 2 ^ 23 ≤ other)
    (less : exponent < otherExponent) :
    (significand : ℚ) * 2 ^ exponent < other * 2 ^ otherExponent := by
  calc (significand : ℚ) * 2 ^ exponent
    _ < 2 ^ 24 * 2 ^ exponent := by
        gcongr
        exact_mod_cast significandLt
    _ ≤ 2 ^ 23 * 2 ^ otherExponent := scaled_le_of_lt less
    _ ≤ other * 2 ^ otherExponent := by
        gcongr
        exact_mod_cast full

theorem compare_magnitudes {significand other : Nat} {exponent otherExponent : Int}
    (significandLt : significand < 2 ^ 24) (otherLt : other < 2 ^ 24)
    (full : 2 ^ 23 ≤ significand ∨ exponent = -149)
    (otherFull : 2 ^ 23 ≤ other ∨ otherExponent = -149)
    (leastLe : -149 ≤ exponent) (leastLeOther : -149 ≤ otherExponent) :
    (compare exponent otherExponent).then (compare significand other) =
      compare ((significand : ℚ) * 2 ^ exponent) (other * 2 ^ otherExponent) := by
  rcases lt_trichotomy exponent otherExponent with less | equal | greater
  · have numbers := mul_zpow_lt_of_exponent_lt significandLt (otherFull.resolve_right (by omega))
      less
    rw [compare_lt_iff_lt.mpr less, compare_lt_iff_lt.mpr numbers]
    rfl
  · subst equal
    have scale : (0 : ℚ) < 2 ^ exponent := by positivity
    rw [compare_eq_iff_eq.mpr rfl, Ordering.eq_then]
    rcases lt_trichotomy significand other with less | equal | greater
    · have numbers : (significand : ℚ) * 2 ^ exponent < other * 2 ^ exponent := by gcongr
      rw [compare_lt_iff_lt.mpr less, compare_lt_iff_lt.mpr numbers]
    · rw [equal, compare_eq_iff_eq.mpr rfl, compare_eq_iff_eq.mpr rfl]
    · have numbers : (other : ℚ) * 2 ^ exponent < significand * 2 ^ exponent := by gcongr
      rw [compare_gt_iff_gt.mpr greater, compare_gt_iff_gt.mpr numbers]
  · have numbers := mul_zpow_lt_of_exponent_lt otherLt (full.resolve_right (by omega)) greater
    rw [compare_gt_iff_gt.mpr greater, compare_gt_iff_gt.mpr numbers]
    rfl

@[simp]
theorem number_zero (sign : Sign) : number (.zero sign) = 0 := rfl

@[simp]
theorem number_negative {significand : Nat} {exponent : Int} (positive : 0 < significand) :
    number (.finite .negative significand exponent positive) =
      -(significand * 2 ^ exponent : ℚ) := by
  simp [number, Sign.apply]

@[simp]
theorem number_positive {significand : Nat} {exponent : Int} (positive : 0 < significand) :
    number (.finite .positive significand exponent positive) = significand * 2 ^ exponent := by
  simp [number, Sign.apply]

theorem compare_neg_neg (left right : ℚ) :
    compare (-left) (-right) = (compare left right).swap := by
  rcases lt_trichotomy left right with less | equal | greater
  · rw [compare_lt_iff_lt.mpr less, compare_gt_iff_gt.mpr (neg_lt_neg less)]
    rfl
  · subst equal
    simp
  · rw [compare_gt_iff_gt.mpr greater, compare_lt_iff_lt.mpr (neg_lt_neg greater)]
    rfl

theorem zero_or_finite (finite : first.isFinite = true) :
    (∃ sign, first = .zero sign) ∨
      ∃ sign significand exponent positive, first = .finite sign significand exponent positive := by
  cases first with
  | infinity sign => simp [UnpackedFloat.isFinite] at finite
  | notANumber => simp [UnpackedFloat.isFinite] at finite
  | zero sign => exact .inl ⟨sign, rfl⟩
  | finite sign significand exponent positive => exact .inr ⟨_, _, _, _, rfl⟩

/-- Signs are compared before exponents and significands. -/
theorem compare_finite {sign other : Sign} {significand otherSignificand : Nat}
    {exponent otherExponent : Int} {positive : 0 < significand} {otherPos : 0 < otherSignificand}
    (canonical : Canonical (.finite sign significand exponent positive))
    (otherCanonical : Canonical (.finite other otherSignificand otherExponent otherPos)) :
    (UnpackedFloat.finite sign significand exponent positive).compare
        (.finite other otherSignificand otherExponent otherPos) =
      some (compare (number (.finite sign significand exponent positive))
        (number (.finite other otherSignificand otherExponent otherPos))) := by
  have magnitude : (0 : ℚ) < significand * 2 ^ exponent := by positivity
  have otherMagnitude : (0 : ℚ) < otherSignificand * 2 ^ otherExponent := by positivity
  rcases canonical with ⟨significandLt, leastLe, _, full⟩
  rcases otherCanonical with ⟨otherLt, leastLeOther, _, otherFull⟩
  have magnitudes := compare_magnitudes significandLt otherLt full otherFull leastLe leastLeOther
  cases sign with
  | negative =>
      cases other with
      | negative =>
          rw [number_negative, number_negative, compare_neg_neg, ← magnitudes]
          rfl
      | positive =>
          rw [number_negative, number_positive,
            compare_lt_iff_lt.mpr ((neg_lt_zero.mpr magnitude).trans otherMagnitude)]
          rfl
  | positive =>
      cases other with
      | negative =>
          rw [number_positive, number_negative,
            compare_gt_iff_gt.mpr ((neg_lt_zero.mpr otherMagnitude).trans magnitude)]
          rfl
      | positive =>
          rw [number_positive, number_positive, ← magnitudes]
          rfl

/-- Comparing finite parts compares their numbers. -/
theorem compare_eq_compare_number (canonical : Canonical first) (otherCanonical : Canonical second)
    (finite : first.isFinite = true) (otherFinite : second.isFinite = true) :
    first.compare second = some (compare (number first) (number second)) := by
  rcases zero_or_finite finite with ⟨sign, rfl⟩ | ⟨sign, significand, exponent, positive, rfl⟩
  · rcases zero_or_finite otherFinite with ⟨other, rfl⟩ | ⟨other, significand, exponent, _, rfl⟩
    · simp [UnpackedFloat.compare]
    · have magnitude : (0 : ℚ) < significand * 2 ^ exponent := by positivity
      cases other with
      | negative =>
          rw [number_zero, number_negative, compare_gt_iff_gt.mpr (neg_lt_zero.mpr magnitude)]
          rfl
      | positive =>
          rw [number_zero, number_positive, compare_lt_iff_lt.mpr magnitude]
          rfl
  · have magnitude : (0 : ℚ) < significand * 2 ^ exponent := by positivity
    rcases zero_or_finite otherFinite with
      ⟨other, rfl⟩ | ⟨other, otherSignificand, otherExponent, _, rfl⟩
    · cases sign with
      | negative =>
          rw [number_zero, number_negative, compare_lt_iff_lt.mpr (neg_lt_zero.mpr magnitude)]
          rfl
      | positive =>
          rw [number_zero, number_positive, compare_gt_iff_gt.mpr magnitude]
          rfl
    · exact compare_finite canonical otherCanonical

theorem lt_iff_compare : low < high ↔ (parts low).compare (parts high) = some .lt := by
  have unfolded : low < high ↔ (parts low).lt (parts high) = true := by
    change decide ((parts low).lt (parts high) = true) = true ↔ _
    rw [decide_eq_true_iff]
  rw [unfolded, UnpackedFloat.lt, beq_iff_eq]

theorem le_iff_compare :
    low ≤ high ↔ ((parts low).compare (parts high)).any (·.isLE) = true := by
  change decide ((parts low).le (parts high) = true) = true ↔ _
  rw [decide_eq_true_iff, UnpackedFloat.le]

theorem lt_iff_toRat_lt (finite : low.isFinite = true) (otherFinite : high.isFinite = true) :
    low < high ↔ toRat low < toRat high := by
  rw [lt_iff_compare, compare_eq_compare_number (canonical_parts low) (canonical_parts high) finite
    otherFinite, Option.some_inj, compare_lt_iff_lt]
  rfl

theorem le_iff_toRat_le (finite : low.isFinite = true) (otherFinite : high.isFinite = true) :
    low ≤ high ↔ toRat low ≤ toRat high := by
  rw [le_iff_compare, compare_eq_compare_number (canonical_parts low) (canonical_parts high) finite
    otherFinite, Option.any_some]
  exact Ordering.isLE_iff_ne_gt.trans compare_le_iff_le

theorem isFinite_min (finite : low.isFinite = true) (otherFinite : high.isFinite = true) :
    (min low high).isFinite = true := by
  change (if low ≤ high then low else high).isFinite = true
  split <;> assumption

theorem toRat_min (finite : low.isFinite = true) (otherFinite : high.isFinite = true) :
    toRat (min low high) = min (toRat low) (toRat high) := by
  change toRat (if low ≤ high then low else high) = _
  rw [min_def]
  simp only [le_iff_toRat_le finite otherFinite]
  split <;> rfl

/-- No value is below itself, a NaN and an infinity included. -/
theorem not_lt_self (value : Float32) : ¬value < value := by
  rw [lt_iff_compare]
  cases parts value with
  | infinity sign => cases sign <;> decide
  | notANumber => decide
  | zero sign => simp [UnpackedFloat.compare]
  | finite sign significand exponent positive =>
      cases sign <;> simp [UnpackedFloat.compare]

end Order

section Magnitude

variable (value : Float32)

theorem parts_abs : parts value.abs = (parts value).abs := by
  have canonical : Canonical (parts value).abs := by
    have before := canonical_parts value
    cases shape : parts value with
    | finite sign significand exponent positive =>
        rw [shape] at before
        exact before
    | _ => trivial
  exact parts_ofParts canonical

theorem isFinite_abs : value.abs.isFinite = value.isFinite := by
  change (parts value.abs).isFinite = (parts value).isFinite
  rw [parts_abs]
  cases parts value <;> rfl

theorem toRat_abs : toRat value.abs = |toRat value| := by
  rw [toRat, toRat, parts_abs]
  cases parts value with
  | infinity sign => simp [UnpackedFloat.abs, number]
  | notANumber => simp [UnpackedFloat.abs, number]
  | zero sign => simp [UnpackedFloat.abs]
  | finite sign significand exponent positive =>
      have magnitude : (0 : ℚ) ≤ significand * 2 ^ exponent := by positivity
      cases sign <;> simp [UnpackedFloat.abs, abs_of_nonneg magnitude]

end Magnitude

end Rotor.Single

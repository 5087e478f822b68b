import Rotor.Proofs.Single.Value

/-!
# Rounding

An operation on values computes its exact result and rounds it to a value nearby. Around a number
the values are evenly spaced (`Single.Spacing`), and rounding takes a multiple of the spacing that
is at most half of it away (`Single.Rounded`). From this follow the two facts that bounds on
computed values rest on: rounding keeps the order to every number that a value can stand for
(`Single.Rounded.le_of_le`), and its error is small against the number (`Single.Rounded.error_le`).
-/

namespace Rotor.Single

open Float.Model (Format UnpackedFloat totalExponent)
open Float.Model.UnpackedFloat (Sign Accuracy ExtendedMantissa shiftToTargetExponent
  shiftToExponent roundWithAccuracy decreaseExponent accuracyOfFraction)

/-- Around numbers of this magnitude, values are the multiples of `2 ^ exponent`. -/
structure Spacing (magnitude : ℚ) (exponent : Int) : Prop where
  least_le : -149 ≤ exponent
  lt : magnitude < 2 ^ 24 * 2 ^ exponent
  full : exponent = -149 ∨ 2 ^ 23 * 2 ^ exponent ≤ magnitude

/-- A number that a value can stand for, or that would be one if exponents had no upper end. -/
def OnGrid (bound : ℚ) : Prop :=
  ∃ multiple exponent : Int, -149 ≤ exponent ∧ |multiple| < 2 ^ 24 ∧ bound = multiple * 2 ^ exponent

/-- A finite value that is as close to a number as the spacing of values allows. -/
structure Rounded (exact : ℚ) (value : Float32) : Prop where
  finite : value.isFinite = true
  near : ∃ exponent : Int, ∃ multiple : Int, Spacing |exact| exponent ∧
    toRat value = multiple * 2 ^ exponent ∧ |multiple * 2 ^ exponent - exact| ≤ 2 ^ exponent / 2

section Grid

variable {exact bound : ℚ} {multiple exponent : Int}

theorem OnGrid.neg (onGrid : OnGrid bound) : OnGrid (-bound) := by
  rcases onGrid with ⟨multiple, exponent, least, few, rfl⟩
  refine ⟨-multiple, exponent, least, ?_, ?_⟩
  · rwa [abs_neg]
  · push_cast
    ring

theorem onGrid_natCast {whole : Nat} (few : whole < 2 ^ 24) : OnGrid whole := by
  refine ⟨whole, 0, by decide, ?_, by simp⟩
  rw [Nat.abs_cast]
  exact_mod_cast few

theorem onGrid_ofNat {whole : Nat} [whole.AtLeastTwo] (few : whole < 2 ^ 24) :
    OnGrid (OfNat.ofNat whole) :=
  onGrid_natCast few

theorem onGrid_one : OnGrid 1 := by
  simpa using onGrid_natCast (by decide : 1 < 2 ^ 24)

theorem onGrid_zero : OnGrid 0 :=
  ⟨0, 0, by decide, by decide, by simp⟩

theorem onGrid_toRat (value : Float32) : OnGrid (toRat value) := by
  have canonical := canonical_parts value
  rw [toRat]
  cases shape : parts value with
  | infinity sign => exact onGrid_zero
  | notANumber => exact onGrid_zero
  | zero sign => exact onGrid_zero
  | finite sign significand exponent positive =>
      rw [shape] at canonical
      rcases canonical with ⟨significandLt, leastLe, _, _⟩
      refine ⟨sign.apply significand, exponent, leastLe, ?_, rfl⟩
      cases sign <;> simp [Sign.apply] <;> omega

/-- Multiples of one spacing that differ by less than a step are in order. -/
theorem le_of_multiple_lt (exponent : Int) {first second : Int}
    (lt : (first : ℚ) * 2 ^ exponent < (second + 1) * 2 ^ exponent) : first ≤ second := by
  have step : (0 : ℚ) ≤ 2 ^ exponent := by positivity
  have ordered := lt_of_mul_lt_mul_right lt step
  exact Int.lt_add_one_iff.mp (by exact_mod_cast ordered)

theorem add_lt_of_mul_lt {digits : Int} (lt : (2 : ℚ) ^ 23 * 2 ^ exponent < 2 ^ digits) :
    23 + exponent < digits := by
  have powers : (2 : ℚ) ^ (23 + exponent) < 2 ^ digits := by rwa [zpow_add₀ two_ne_zero]
  exact (zpow_lt_zpow_iff_right₀ one_lt_two).mp powers

/-- Numbers on a finer grid are nearer to zero than those with full significands on a coarser
one. -/
theorem abs_multiple_lt_of_finer {count scale : Int} (few : |count| < 2 ^ 24)
    (finer : scale < exponent) : |(count : ℚ) * 2 ^ scale| < 2 ^ 23 * 2 ^ exponent := by
  have countLt : |(count : ℚ)| < 2 ^ 24 := by exact_mod_cast few
  calc |(count : ℚ) * 2 ^ scale|
    _ = |(count : ℚ)| * 2 ^ scale := by
        rw [abs_mul, abs_of_pos (by positivity : (0 : ℚ) < 2 ^ scale)]
    _ < 2 ^ 24 * 2 ^ scale := by gcongr
    _ ≤ 2 ^ 23 * 2 ^ exponent := scaled_le_of_lt finer

/-- Numbers on a coarser grid are on the finer one too. -/
theorem exists_multiple_of_coarser (count : Int) {scale : Int} (coarser : exponent ≤ scale) :
    ∃ whole : Int, (count : ℚ) * 2 ^ scale = whole * 2 ^ exponent := by
  refine ⟨count * 2 ^ (scale - exponent).toNat, ?_⟩
  have scaleEq : scale = ((scale - exponent).toNat : Int) + exponent := by omega
  conv_lhs => rw [scaleEq, zpow_add₀ two_ne_zero, zpow_natCast]
  push_cast
  ring

/-- Rounding does not pass a number on the grid. Either the number is a multiple of the spacing, or
the spacing is coarser there, and then the number lies nearer to zero than what is rounded. -/
theorem multiple_le_of_le (spacing : Spacing |exact| exponent)
    (near : |(multiple : ℚ) * 2 ^ exponent - exact| ≤ 2 ^ exponent / 2) (onGrid : OnGrid bound)
    (le : exact ≤ bound) : (multiple : ℚ) * 2 ^ exponent ≤ bound := by
  rcases onGrid with ⟨count, scale, least, few, rfl⟩
  have step : (0 : ℚ) < 2 ^ exponent := by positivity
  rw [abs_le] at near
  rcases Int.lt_or_le scale exponent with finer | coarser
  · have full : 2 ^ 23 * 2 ^ exponent ≤ |exact| := spacing.full.resolve_left (by omega)
    have inner := abs_lt.mp (abs_multiple_lt_of_finer few finer)
    rcases le_total 0 exact with nonneg | nonpos
    · rw [abs_of_nonneg nonneg] at full
      linarith
    · rw [abs_of_nonpos nonpos] at full
      have multipleLe : multiple ≤ -2 ^ 23 := le_of_multiple_lt exponent (by
        push_cast
        linarith)
      have scaled : (multiple : ℚ) * 2 ^ exponent ≤ -2 ^ 23 * 2 ^ exponent := by
        gcongr
        exact_mod_cast multipleLe
      linarith
  · rcases exists_multiple_of_coarser count coarser with ⟨whole, rescaled⟩
    rw [rescaled] at le ⊢
    have multipleLe : multiple ≤ whole := le_of_multiple_lt exponent (by linarith)
    gcongr

end Grid

section Residue

variable {mantissa : ExtendedMantissa} {exact : ℚ}

/-- A significand with its two digits of residue stands for a number. -/
def Stands (mantissa : ExtendedMantissa) (exact : ℚ) : Prop :=
  match mantissa.roundBit, mantissa.stickyBit with
  | false, false => exact = mantissa.mantissa
  | false, true => (mantissa.mantissa : ℚ) < exact ∧ exact < mantissa.mantissa + 1 / 2
  | true, false => exact = mantissa.mantissa + 1 / 2
  | true, true => (mantissa.mantissa : ℚ) + 1 / 2 < exact ∧ exact < mantissa.mantissa + 1

theorem stands_exact (significand : Nat) :
    Stands (.ofMantissaAndAccuracy significand .exact) significand := rfl

theorem Stands.near (stands : Stands mantissa exact) :
    |(mantissa.roundedMantissa : ℚ) - exact| ≤ 1 / 2 := by
  rcases mantissa with ⟨digits, roundBit, stickyBit⟩
  rw [abs_le]
  cases roundBit <;> cases stickyBit <;>
    simp only [Stands, ExtendedMantissa.roundedMantissa, ExtendedMantissa.accuracy,
      Accuracy.roundToNearestEven] at stands ⊢
  · constructor <;> linarith
  · constructor <;> linarith
  · have even : ((digits + digits % 2 : Nat) : ℚ) = digits + (digits % 2 : Nat) := Nat.cast_add _ _
    rcases Nat.mod_two_eq_zero_or_one digits with zero | one
    · rw [even, zero]
      constructor <;> push_cast <;> linarith
    · rw [even, one]
      constructor <;> push_cast <;> linarith
  · push_cast
    constructor <;> linarith

theorem Stands.shiftRightOne (stands : Stands mantissa exact) :
    Stands mantissa.shiftRightOne (exact / 2) := by
  rcases mantissa with ⟨digits, roundBit, stickyBit⟩
  have halves : (digits : ℚ) = 2 * (digits / 2 : Nat) + (digits % 2 : Nat) := by
    exact_mod_cast (Nat.div_add_mod digits 2).symm
  rcases Nat.mod_two_eq_zero_or_one digits with zero | one
  · rw [zero] at halves
    cases roundBit <;> cases stickyBit <;>
      simp_all [Stands, ExtendedMantissa.shiftRightOne] <;> (try constructor) <;> linarith
  · rw [one] at halves
    cases roundBit <;> cases stickyBit <;>
      simp_all [Stands, ExtendedMantissa.shiftRightOne] <;> (try constructor) <;> linarith

theorem Stands.shiftRight (stands : Stands mantissa exact) (count : Nat) :
    Stands (mantissa >>> count) (exact / 2 ^ count) := by
  change Stands (count.repeat ExtendedMantissa.shiftRightOne mantissa) _
  induction count with
  | zero => simpa [Nat.repeat] using stands
  | succ count ih =>
      rw [pow_succ, ← div_div]
      exact ih.shiftRightOne

end Residue

section Result

variable {mantissa : ExtendedMantissa} {exact : ℚ} {significand : Nat} {exponent : Int}
variable {accuracy : Accuracy} {sign : Sign}

theorem Stands.bounds (stands : Stands mantissa exact) :
    (mantissa.mantissa : ℚ) ≤ exact ∧ exact < mantissa.mantissa + 1 := by
  rcases mantissa with ⟨digits, roundBit, stickyBit⟩
  cases roundBit <;> cases stickyBit <;> simp only [Stands] at stands ⊢ <;>
    constructor <;> linarith

/-- The exponent that a result is rounded to. -/
theorem targetExponent_eq (significand : Nat) (exponent : Int) :
    Format.binary32.targetExponent (totalExponent significand exponent) =
      max (significand.log2 + exponent - 23) (-149) := by
  simp only [Format.targetExponent, totalExponent, Format.minExponent, Format.mantissaBits]
  omega

theorem spacing_target (stands : Stands (.ofMantissaAndAccuracy significand accuracy) exact)
    (room : exponent ≤ max (significand.log2 + exponent - 23) (-149)) :
    Spacing (exact * 2 ^ exponent) (max (significand.log2 + exponent - 23) (-149)) := by
  have digits : (ExtendedMantissa.ofMantissaAndAccuracy significand accuracy).mantissa =
      significand := by
    rcases accuracy with _ | _ | _ | _ <;> rfl
  rcases digits ▸ stands.bounds with ⟨low, high⟩
  refine ⟨by omega, ?_, ?_⟩
  · have below : exact < 2 ^ (significand.log2 + 1) := by
      have whole : (significand : ℚ) + 1 ≤ 2 ^ (significand.log2 + 1) := by
        exact_mod_cast Nat.lt_log2_self
      linarith
    calc exact * 2 ^ exponent
      _ < 2 ^ (significand.log2 + 1) * 2 ^ exponent := by gcongr
      _ = 2 ^ 24 * 2 ^ (significand.log2 + exponent - 23 : Int) := by
          rw [← zpow_natCast, ← zpow_add₀ two_ne_zero, ← zpow_natCast, ← zpow_add₀ two_ne_zero]
          congr 1
          push_cast
          ring
      _ ≤ 2 ^ 24 * 2 ^ max (significand.log2 + exponent - 23 : Int) (-149) := by
          gcongr
          · exact one_le_two
          · exact le_max_left _ _
  · rcases le_or_gt (significand.log2 + exponent - 23 : Int) (-149) with least | greater
    · exact .inl (max_eq_right least)
    · right
      rw [max_eq_left greater.le] at room ⊢
      have some : significand ≠ 0 := by
        rintro rfl
        simp at room
      calc (2 : ℚ) ^ 23 * 2 ^ (significand.log2 + exponent - 23 : Int)
        _ = 2 ^ significand.log2 * 2 ^ exponent := by
            rw [← zpow_natCast, ← zpow_add₀ two_ne_zero, ← zpow_natCast, ← zpow_add₀ two_ne_zero]
            congr 1
            push_cast
            ring
        _ ≤ exact * 2 ^ exponent := by
            have whole : (2 : ℚ) ^ significand.log2 ≤ significand := by
              exact_mod_cast Nat.log2_self_le some
            gcongr
            exact whole.trans low

/-- A rounded significand with at most 24 digits is not shifted again. -/
theorem shiftToTargetExponent_of_lt (few : significand < 2 ^ 24) (least : -149 ≤ exponent) :
    shiftToTargetExponent .binary32 significand exponent .exact =
      (⟨significand, false, false⟩, exponent) := by
  have log : significand.log2 ≤ 23 := by
    rcases Nat.eq_zero_or_pos significand with rfl | positive
    · simp
    · exact Nat.le_of_lt_succ ((Nat.log2_lt (by omega)).mpr few)
  have still : (max (significand.log2 + exponent - 23) (-149) - exponent : Int).toNat = 0 := by
    omega
  simp only [shiftToTargetExponent, targetExponent_eq, shiftToExponent, still]
  simp [ExtendedMantissa.ofMantissaAndAccuracy, HShiftRight.hShiftRight, Nat.repeat]

/-- Where rounding up makes one more digit, that digit is shifted out again. -/
theorem shiftToTargetExponent_carry (least : -149 ≤ exponent) :
    shiftToTargetExponent .binary32 (2 ^ 24) exponent .exact =
      (⟨2 ^ 23, false, false⟩, exponent + 1) := by
  have log : (2 ^ 24 : Nat).log2 = 24 := Nat.log2_two_pow
  have once : (max ((24 : Nat) + exponent - 23) (-149) - exponent : Int).toNat = 1 := by omega
  simp only [shiftToTargetExponent, targetExponent_eq, shiftToExponent, log, once]
  rfl

theorem abs_apply_mul {value : ℚ} (nonneg : 0 ≤ value) (sign : Sign) :
    |(sign.apply 1 : ℚ) * value| = value := by
  cases sign <;> simp [Sign.apply, abs_of_nonneg nonneg]

theorem rounded_of_parts {whole : Nat} {value : ℚ} (sign : Sign) (spacing : Spacing value exponent)
    (near : |(whole : ℚ) * 2 ^ exponent - value| ≤ 2 ^ exponent / 2) (nonneg : 0 ≤ value)
    {unpacked : UnpackedFloat} (canonical : Canonical unpacked) (finite : unpacked.isFinite = true)
    (stood : number unpacked = sign.apply whole * 2 ^ exponent) :
    Rounded (sign.apply 1 * value) (ofParts unpacked) := by
  have parts := parts_ofParts canonical
  refine ⟨?_, exponent, sign.apply whole, ?_, ?_, ?_⟩
  · change (Single.parts (ofParts unpacked)).isFinite = true
    rwa [parts]
  · rwa [abs_apply_mul nonneg]
  · rw [toRat, parts, stood]
  · cases sign with
    | positive => simpa [Sign.apply] using near
    | negative =>
        rw [← abs_neg] at near
        have negated : ((Sign.negative.apply whole : Int) : ℚ) * 2 ^ exponent -
            (Sign.negative.apply 1 : Int) * value = -(whole * 2 ^ exponent - value) := by
          simp only [Sign.apply]
          push_cast
          ring
        rwa [negated]

/-- Where a number is in range, so is the exponent of the spacing around it. -/
theorem Spacing.exponent_le {value : ℚ} (spacing : Spacing value exponent)
    (few : value ≤ 2 ^ 127) : exponent ≤ 104 := by
  rcases spacing.full with least | full
  · omega
  · have above : (2 : ℚ) ^ 127 < 2 ^ (128 : Int) := by norm_num
    have powers := add_lt_of_mul_lt ((full.trans few).trans_lt above)
    omega

section Nearest

variable {whole : Nat} {value : ℚ} (spacing : Spacing value exponent)
variable (near : |(whole : ℚ) * 2 ^ exponent - value| ≤ 2 ^ exponent / 2)

include spacing near

/-- The nearest multiple has 24 digits, or is the least number with 25. -/
theorem Spacing.le_of_near : whole ≤ 2 ^ 24 := by
  have step : (0 : ℚ) < 2 ^ exponent := by positivity
  have bounds := abs_le.mp near
  have below := spacing.lt
  have ordered : (whole : Int) ≤ (2 ^ 24 : Nat) := le_of_multiple_lt exponent (by
    push_cast
    linarith)
  exact_mod_cast ordered

/-- The nearest multiple does not have fewer than 24 digits unless the exponent is the least. -/
theorem Spacing.full_of_near : 2 ^ 23 ≤ whole ∨ exponent = -149 := by
  rcases spacing.full with least | full
  · exact .inr least
  · left
    have step : (0 : ℚ) < 2 ^ exponent := by positivity
    have bounds := abs_le.mp near
    have ordered : ((2 ^ 23 : Nat) : Int) ≤ whole := le_of_multiple_lt exponent (by
      push_cast
      linarith)
    exact_mod_cast ordered

/-- The last step of rounding, for a whole number of steps that is close enough. -/
theorem rounded_of_spacing (nonneg : 0 ≤ value) (few : value ≤ 2 ^ 127) (sign : Sign) :
    let last := shiftToTargetExponent .binary32 whole exponent .exact
    Rounded (sign.apply 1 * value) (ofParts (if none : last.1.mantissa = 0 then .zero sign else
      .finite sign last.1.mantissa last.2 (Nat.pos_of_ne_zero none))) := by
  intro last
  rcases (spacing.le_of_near near).lt_or_eq with short | carry
  · simp only [last, shiftToTargetExponent_of_lt short spacing.least_le]
    split
    · next none =>
      apply rounded_of_parts sign spacing near nonneg (canonical_zero sign) rfl
      cases sign <;> simp [Sign.apply, show whole = 0 from none]
    · exact rounded_of_parts sign spacing near nonneg
        ⟨short, spacing.least_le, spacing.exponent_le few, spacing.full_of_near near⟩ rfl rfl
  · subst carry
    have step : (0 : ℚ) < 2 ^ exponent := by positivity
    have bounds := abs_le.mp near
    have room : 23 + exponent < 127 := by
      apply add_lt_of_mul_lt
      push_cast at bounds
      exact lt_of_lt_of_le (by linarith) few
    simp only [last, shiftToTargetExponent_carry spacing.least_le]
    rw [dif_neg (by decide)]
    refine rounded_of_parts sign spacing near nonneg
      ⟨by decide, (spacing.least_le.trans (by omega)), by omega, .inl le_rfl⟩ rfl ?_
    have doubled : (2 : ℚ) ^ (exponent + 1) = 2 ^ exponent * 2 := zpow_add_one₀ two_ne_zero exponent
    simp only [number, doubled]
    cases sign <;> simp only [Sign.apply] <;> push_cast <;> ring

end Nearest

/-- Rounding a significand with its residue, where there is enough of it, gives a value that is as
close as it can be. -/
theorem rounded_roundWithAccuracy
    (stands : Stands (.ofMantissaAndAccuracy significand accuracy) exact)
    (room : exponent ≤ max (significand.log2 + exponent - 23) (-149))
    (few : exact * 2 ^ exponent ≤ 2 ^ 127) (sign : Sign) :
    Rounded (sign.apply 1 * (exact * 2 ^ exponent))
      (ofParts (roundWithAccuracy .binary32 sign significand exponent accuracy)) := by
  have spacing := spacing_target stands room
  have nonneg : 0 ≤ exact * 2 ^ exponent :=
    mul_nonneg ((Nat.cast_nonneg _).trans stands.bounds.1) (by positivity)
  generalize targetEq : max (significand.log2 + exponent - 23 : Int) (-149) = target at spacing room
  generalize countEq : (target - exponent).toNat = count
  have reached : exponent + (count : Int) = target := by omega
  have shifted := (stands.shiftRight count).near
  generalize mantissaEq : ExtendedMantissa.ofMantissaAndAccuracy significand accuracy >>> count =
    mantissa at shifted
  have first : shiftToTargetExponent .binary32 significand exponent accuracy =
      (mantissa, target) := by
    simp only [shiftToTargetExponent, targetExponent_eq, shiftToExponent, targetEq, countEq,
      mantissaEq, reached]
  have scaled : exact * 2 ^ exponent = exact / 2 ^ count * 2 ^ target := by
    rw [← reached, zpow_add₀ two_ne_zero, zpow_natCast, mul_comm (2 ^ exponent), ← mul_assoc,
      div_mul_cancel₀ _ (by positivity)]
  have near : |(mantissa.roundedMantissa : ℚ) * 2 ^ target - exact * 2 ^ exponent| ≤
      2 ^ target / 2 := by
    have step : (0 : ℚ) < 2 ^ target := by positivity
    calc |(mantissa.roundedMantissa : ℚ) * 2 ^ target - exact * 2 ^ exponent|
      _ = |(mantissa.roundedMantissa : ℚ) - exact / 2 ^ count| * 2 ^ target := by
          rw [scaled, ← sub_mul, abs_mul, abs_of_pos step]
      _ ≤ 1 / 2 * 2 ^ target := by gcongr
      _ = 2 ^ target / 2 := by ring
  have last := rounded_of_spacing spacing near nonneg few sign
  simp only [roundWithAccuracy, first]
  exact last

end Result

section Bounds

variable {exact bound : ℚ} {value : Float32}

theorem Rounded.le_of_le (rounded : Rounded exact value) (onGrid : OnGrid bound)
    (le : exact ≤ bound) : toRat value ≤ bound := by
  rcases rounded.near with ⟨exponent, multiple, spacing, stood, near⟩
  rw [stood]
  exact multiple_le_of_le spacing near onGrid le

theorem Rounded.ge_of_ge (rounded : Rounded exact value) (onGrid : OnGrid bound)
    (ge : bound ≤ exact) : bound ≤ toRat value := by
  rcases rounded.near with ⟨exponent, multiple, spacing, stood, near⟩
  rw [← abs_neg] at spacing near
  have mirrored : |((-multiple : Int) : ℚ) * 2 ^ exponent - -exact| ≤ 2 ^ exponent / 2 := by
    convert near using 2
    push_cast
    ring
  have negated := multiple_le_of_le spacing mirrored onGrid.neg (neg_le_neg ge)
  rw [stood]
  push_cast at negated
  linarith

/-- A number on the grid is not changed. -/
theorem Rounded.toRat_eq (rounded : Rounded exact value) (onGrid : OnGrid exact) :
    toRat value = exact :=
  le_antisymm (rounded.le_of_le onGrid le_rfl) (rounded.ge_of_ge onGrid le_rfl)

/-- The error against the number, and against the least step for numbers near zero. -/
theorem Rounded.error_le (rounded : Rounded exact value) :
    |toRat value - exact| ≤ |exact| / 2 ^ 24 + 1 / 2 ^ 150 := by
  rcases rounded.near with ⟨exponent, multiple, spacing, stood, near⟩
  rw [stood]
  apply near.trans
  rcases spacing.full with least | full
  · subst least
    have magnitude := abs_nonneg exact
    have half : (2 : ℚ) ^ (-149 : Int) / 2 = 1 / 2 ^ 150 := by norm_num
    rw [half]
    linarith
  · linarith

/-- The error below a power of two. -/
theorem Rounded.error_le_of_lt {digits : Int} (rounded : Rounded exact value)
    (lt : |exact| < 2 ^ digits) (least : -125 ≤ digits) :
    |toRat value - exact| ≤ 2 ^ (digits - 25) := by
  rcases rounded.near with ⟨exponent, multiple, spacing, stood, near⟩
  have exponentLe : exponent ≤ digits - 24 := by
    rcases spacing.full with start | full
    · omega
    · have powers := add_lt_of_mul_lt (full.trans_lt lt)
      omega
  rw [stood]
  calc |(multiple : ℚ) * 2 ^ exponent - exact|
    _ ≤ 2 ^ exponent / 2 := near
    _ = 2 ^ (exponent - 1) := by rw [zpow_sub_one₀ two_ne_zero, div_eq_mul_inv]
    _ ≤ 2 ^ (digits - 25) := zpow_le_zpow_right₀ one_le_two (by omega)

end Bounds

section Normalizing

variable {sign : Sign} {significand : Nat} {exponent : Int}

theorem decreaseExponent_mul (significand : Nat) (exponent target : Int) :
    ((decreaseExponent significand exponent target).1 : ℚ) *
        2 ^ (decreaseExponent significand exponent target).2 = significand * 2 ^ exponent := by
  simp only [decreaseExponent, Nat.shiftLeft_eq]
  generalize (exponent - target).toNat = count
  rw [zpow_sub₀ two_ne_zero, zpow_natCast]
  push_cast
  rw [mul_assoc, mul_div_cancel₀ _ (by positivity)]

theorem le_log2_shiftLeft (positive : 0 < significand) (count : Nat) :
    significand.log2 + count ≤ (significand <<< count).log2 := by
  have shifted : significand <<< count ≠ 0 := by
    rw [Nat.shiftLeft_eq]
    positivity
  rw [Nat.le_log2 shifted, pow_add, Nat.shiftLeft_eq]
  exact Nat.mul_le_mul_right _ (Nat.log2_self_le positive.ne')

theorem rounded_round (positive : 0 < significand)
    (few : (significand : ℚ) * 2 ^ exponent ≤ 2 ^ 127) (sign : Sign) :
    Rounded (sign.apply 1 * (significand * 2 ^ exponent))
      (ofParts (UnpackedFloat.round .binary32 sign significand exponent)) := by
  simp only [UnpackedFloat.round, targetExponent_eq]
  have same := decreaseExponent_mul significand exponent
    (max (significand.log2 + exponent - 23) (-149))
  rw [← same] at few ⊢
  apply rounded_roundWithAccuracy (stands_exact _) _ few
  simp only [decreaseExponent]
  generalize countEq : (exponent - max (significand.log2 + exponent - 23 : Int) (-149)).toNat =
    count
  have log := le_log2_shiftLeft positive count
  omega

theorem rounded_zero (sign : Sign) : Rounded 0 (ofParts (.zero sign)) := by
  have spacing : Spacing 0 (-149) := ⟨le_rfl, by norm_num, .inl rfl⟩
  have near : |((0 : Nat) : ℚ) * 2 ^ (-149 : Int) - 0| ≤ 2 ^ (-149 : Int) / 2 := by norm_num
  have rounded := rounded_of_parts sign spacing near le_rfl (canonical_zero sign) rfl
    (by cases sign <;> simp [Sign.apply])
  simpa using rounded

theorem rounded_normalize {whole : Int} (few : |(whole : ℚ) * 2 ^ exponent| ≤ 2 ^ 127)
    (sign : Sign) :
    Rounded (whole * 2 ^ exponent)
      (ofParts (UnpackedFloat.normalize .binary32 whole exponent sign)) := by
  rw [abs_mul, abs_of_pos (by positivity : (0 : ℚ) < 2 ^ exponent)] at few
  simp only [UnpackedFloat.normalize]
  rcases lt_trichotomy whole 0 with negative | rfl | positive
  · have cast : ((-whole).toNat : ℚ) = -whole := by
      exact_mod_cast Int.toNat_of_nonneg (by omega)
    rw [compare_lt_iff_lt.mpr negative]
    rw [abs_of_neg (by exact_mod_cast negative), ← cast] at few
    have rounded := rounded_round (by omega) few .negative
    rw [cast] at rounded
    simpa [Sign.apply] using rounded
  · simpa using rounded_zero sign
  · have cast : (whole.toNat : ℚ) = whole := by
      exact_mod_cast Int.toNat_of_nonneg (by omega)
    rw [compare_gt_iff_gt.mpr positive]
    rw [abs_of_pos (by exact_mod_cast positive), ← cast] at few
    have rounded := rounded_round (by omega) few .positive
    rw [cast] at rounded
    simpa [Sign.apply] using rounded

end Normalizing

end Rotor.Single

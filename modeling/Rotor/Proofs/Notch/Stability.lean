import Rotor.Proofs.Notch.Band
import Rotor.Proofs.Signal.Wave

/-!
# The poles of a notch

The product of the poles of a notch is its coefficient `a2`. Where the center is away from zero and
from half the sampling rate, this is below one in absolute value, so the notch is stable, for every
quality that settings can ask for (`Coefficients.stable_notch`). All notches of a bank with a lowest
frequency above zero are like this for loops of less than half a millisecond
(`Filter.away_from_ends_of_fast`). At half the sampling rate, where the notches of slower loops are
parked, the sine is lost in rounding, and `a2` comes to one or more.
-/

namespace Rotor

open Single

namespace Coefficients

variable {center micros quality sine spread : Float32}

/-- The angle between two samples, for a center away from zero and from half the sampling rate. -/
theorem between_angle (centerBetween : Between 0 1000 center)
    (microsBetween : Between 0 (2 ^ 32) micros) (low : 7 ≤ toRat center * toRat micros)
    (high : toRat center * toRat micros ≤ 499990) :
    Between (4398 / 10 ^ 8) (3141531 / 10 ^ 6) (2 * Signal.pi * center * micros * 0.000001) := by
  rcases centerBetween with ⟨centerFinite, centerLow, centerHigh⟩
  rcases microsBetween with ⟨microsFinite, microsLow, microsHigh⟩
  have shape : parts (2 * Signal.pi) = .finite .positive 13176795 (-21) (by decide) := rfl
  have turn : Between (13176795 / 2 ^ 21) (13176795 / 2 ^ 21) (2 * Signal.pi) :=
    between_of_parts shape (by norm_num)
  have turnIs := turn.toRat_eq
  have millionthIs := Smoother.between_millionth.toRat_eq
  -- Each of the three products is rounded once.
  have firstSize : |toRat (2 * Signal.pi) * toRat center| = 13176795 / 2 ^ 21 * toRat center := by
    rw [turnIs, abs_of_nonneg (mul_nonneg (by norm_num) centerLow)]
  have first := rounded_mul turn.finite centerFinite (by rw [firstSize]; linarith)
  have firstNear := abs_le.mp first.error_le
  rw [firstSize, turnIs] at firstNear
  generalize 2 * Signal.pi * center = perSecond at first firstNear ⊢
  have secondLow := mul_le_mul_of_nonneg_right firstNear.1 microsLow
  have secondHigh := mul_le_mul_of_nonneg_right firstNear.2 microsLow
  have secondSize : |toRat perSecond * toRat micros| = toRat perSecond * toRat micros :=
    abs_of_nonneg (by linarith)
  have second := rounded_mul first.finite microsFinite (by rw [secondSize]; linarith)
  have secondNear := abs_le.mp second.error_le
  rw [secondSize] at secondNear
  generalize perSecond * micros = perMillion at second secondNear ⊢
  have thirdSize : |toRat perMillion * toRat (0.000001 : Float32)| =
      toRat perMillion * (8796093 / 2 ^ 43) := by
    rw [millionthIs, abs_of_nonneg (by linarith)]
  have third := rounded_mul second.finite Smoother.between_millionth.finite (by
    rw [thirdSize]
    linarith)
  have thirdNear := abs_le.mp third.error_le
  rw [thirdSize, millionthIs] at thirdNear
  exact ⟨third.finite, by linarith, by linarith⟩

/-- What the sine is divided by. -/
theorem between_spread (qualityBetween : Between (81 / 2 ^ 13) 656 quality)
    (sineBetween : Between (11 / 2 ^ 18) (9 / 8) sine) :
    Between (17 / 2 ^ 29) 64 (sine / (2 * quality)) := by
  have doubled : Between (81 / 2 ^ 12) 1312 (2 * quality) :=
    (between_ofNat (by decide)).mul qualityBetween (by norm_num) (by norm_num)
      ⟨81, -12, by decide, by decide, by norm_num⟩ (onGrid_ofNat (by decide))
      (by norm_num) (by norm_num) (by norm_num)
  exact sineBetween.div doubled (by norm_num) (by norm_num)
    ⟨17, -29, by decide, by decide, by norm_num⟩ (onGrid_ofNat (by decide))
    (by norm_num) (by norm_num) (by norm_num)

theorem div_le_max_zero {numerator denominator : ℚ} (large : 1 ≤ denominator) :
    numerator / denominator ≤ max numerator 0 := by
  rcases le_total 0 numerator with nonneg | nonpos
  · exact (div_le_self nonneg large).trans (le_max_left _ _)
  · exact (div_nonpos_of_nonpos_of_nonneg nonpos (by linarith)).trans (le_max_right _ _)

/-- The spread is more than half of the step below one, so rounding does not lose it. -/
theorem difference_le (low : 17 / 2 ^ 29 ≤ toRat spread)
    (difference : Rounded (1 - toRat spread) (1 - spread)) :
    toRat (1 - spread) ≤ 1 - 1 / 2 ^ 29 := by
  rcases le_total (toRat spread) 1 with small | large
  · have size : |1 - toRat spread| < 2 ^ (0 : Int) := by
      rw [abs_of_nonneg (by linarith), zpow_zero]
      linarith
    have near := abs_le.mp (difference.error_le_of_lt size (by decide))
    norm_num at near
    linarith
  · have notPositive := difference.le_of_le onGrid_zero (by linarith)
    linarith

/-- The difference is below one, and so is its quotient by a sum that is not below one. -/
theorem between_a2 (spreadBetween : Between (17 / 2 ^ 29) 64 spread) :
    Between (-(127 / 128)) (1 - 1 / 2 ^ 29) ((1 - spread) / (1 + spread)) := by
  rcases spreadBetween with ⟨finite, low, high⟩
  have oneIs := between_one.toRat_eq
  have sum := rounded_add between_one.finite finite (abs_le.mpr ⟨by linarith, by linarith⟩)
  have difference := rounded_sub between_one.finite finite
    (abs_le.mpr ⟨by linarith, by linarith⟩)
  rw [oneIs] at sum difference
  have sumLow : 1 ≤ toRat (1 + spread) := sum.ge_of_ge onGrid_one (by linarith)
  have quotientLow : -(127 / 128) ≤ toRat (1 - spread) / toRat (1 + spread) := by
    rw [le_div_iff₀ (by linarith)]
    have sumSize : |1 + toRat spread| ≤ 65 := abs_le.mpr ⟨by linarith, by linarith⟩
    have differenceSize : |1 - toRat spread| ≤ 65 := abs_le.mpr ⟨by linarith, by linarith⟩
    have sumNear := abs_le.mp sum.error_le
    have differenceNear := abs_le.mp difference.error_le
    linarith
  have quotientHigh := @div_le_max_zero (toRat (1 - spread)) _ sumLow
  have onGrid : OnGrid (max (toRat (1 - spread)) 0) := by
    rcases max_choice (toRat (1 - spread)) 0 with there | there <;> rw [there]
    · exact onGrid_toRat _
    · exact onGrid_zero
  have few : max (toRat (1 - spread)) 0 ≤ 1 - 1 / 2 ^ 29 :=
    max_le (difference_le low difference) (by norm_num)
  have quotient := rounded_div difference.finite sum.finite (by linarith)
    (abs_le.mpr ⟨by linarith, by linarith⟩)
  exact (quotient.between ⟨-127, -7, by decide, by decide, by norm_num⟩ onGrid quotientLow
    quotientHigh).mono le_rfl few

/-- The notch for a center away from zero and from half the sampling rate is stable. -/
theorem stable_notch (centerBetween : Between 0 1000 center)
    (microsBetween : Between 0 (2 ^ 32) micros) (qualityBetween : Between (81 / 2 ^ 13) 656 quality)
    (low : 7 ≤ toRat center * toRat micros) (high : toRat center * toRat micros ≤ 499990) :
    -1 < (notch center micros quality).a2 ∧ (notch center micros quality).a2 < 1 := by
  have angle := between_angle centerBetween microsBetween low high
  have poles := between_a2 (between_spread qualityBetween (Signal.between_sine angle))
  change Between (-(127 / 128)) (1 - 1 / 2 ^ 29) (notch center micros quality).a2 at poles
  have oneIs := between_one.toRat_eq
  have minusOne : parts (-1 : Float32) = .finite .negative 8388608 (-23) (by decide) := rfl
  have minusOneIs : toRat (-1 : Float32) = -1 := by
    rw [toRat, minusOne, number_negative]
    norm_num
  constructor
  · rw [lt_iff_toRat_lt rfl poles.finite, minusOneIs]
    linarith [poles.low_le]
  · rw [lt_iff_toRat_lt poles.finite between_one.finite, oneIs]
    linarith [poles.le_high]

end Coefficients

namespace Filter

variable {filter : Filter} {settings : FilterSettings} {motors : MotorSettings} {timing : Timing}
variable {signal : Signal} {bank : Bank} {motor harmonic : Nat}

/-- In a fast loop, a bank with a lowest frequency above zero has all centers away from the ends. -/
theorem away_from_ends_of_fast {center : Float32} (inRange : bank.InRange)
    (between : Between (min (toRat bank.lowest) (toRat bank.parked)) (toRat bank.parked) center)
    (lowest : 1 ≤ bank.lowest) (slowest : 7 ≤ bank.micros) (fast : bank.micros ≤ 499) :
    7 ≤ toRat center * toRat bank.micros ∧ toRat center * toRat bank.micros ≤ 499990 := by
  have seven : Between 7 7 (7 : Float32) := between_ofNat (by decide)
  have ceiling : Between 499 499 (499 : Float32) := between_ofNat (by decide)
  have micros := inRange.micros
  rw [le_iff_toRat_le between_one.finite inRange.lowest.finite, between_one.toRat_eq] at lowest
  rw [le_iff_toRat_le seven.finite micros.finite, seven.toRat_eq] at slowest
  rw [le_iff_toRat_le micros.finite ceiling.finite, ceiling.toRat_eq] at fast
  have parked : toRat bank.parked = 1000 := by
    rw [inRange.ceiling, Bank.parkingFrequency_of_fast ⟨micros.finite, micros.low_le, fast⟩]
    exact (between_ofNat (by decide)).toRat_eq
  rw [parked] at between
  have centerLow : 1 ≤ toRat center := (le_min lowest (by norm_num)).trans between.low_le
  constructor
  · calc (7 : ℚ)
      _ = 1 * 7 := (one_mul 7).symm
      _ ≤ toRat center * toRat bank.micros := by gcongr
  · calc toRat center * toRat bank.micros
      _ ≤ 1000 * 499 := by
          gcongr
          exact between.le_high
      _ ≤ 499990 := by norm_num

/-- Whatever was done to a filter, a notch of a bank that is on is stable where its center is away
from zero and from half the sampling rate: by 7 millionths of the rate from zero, and by 10
millionths from half the rate. In loops of 7 to 499 microseconds this is every notch of a bank with
a lowest frequency above zero. -/
theorem stable_away_from_ends (built : new settings motors timing = .ok filter)
    (actions : List Action) (present : (filter.perform actions).bank? signal = some bank)
    (motorLt : motor < (filter.perform actions).motorCount)
    (harmonicLt : harmonic < bank.harmonics) :
    ∃ center, ∀ axis < axisCount, ∃ coefficients,
      (filter.perform actions).center? signal axis motor harmonic = some center ∧
      (filter.perform actions).coefficients? signal axis motor harmonic = some coefficients ∧
      (7 ≤ toRat center * toRat bank.micros ∧ toRat center * toRat bank.micros ≤ 499990 ∨
          1 ≤ bank.lowest ∧ 7 ≤ bank.micros ∧ bank.micros ≤ 499 →
        -1 < coefficients.a2 ∧ coefficients.a2 < 1) := by
  have inRange := inRange_perform (inRange_new built) actions
  rcases exists_center_between (sound_perform (sound_new built) actions) inRange present motorLt
    harmonicLt with ⟨center, between, tuned⟩
  have bankInRange := inRange.banks bank (mem_of_bank? present).1
  have parked := bankInRange.parked
  have nonneg : 0 ≤ min (toRat bank.lowest) (toRat bank.parked) :=
    le_min bankInRange.lowest.low_le (parked.low_le.trans' (by norm_num))
  have stable (low : 7 ≤ toRat center * toRat bank.micros)
      (high : toRat center * toRat bank.micros ≤ 499990) :=
    Coefficients.stable_notch (between.mono nonneg parked.le_high)
      (bankInRange.micros.mono (by norm_num) le_rfl) bankInRange.quality low high
  refine ⟨center, fun axis axisLt => ⟨_, (tuned axis axisLt).1, (tuned axis axisLt).2, ?_⟩⟩
  rintro (⟨low, high⟩ | ⟨lowest, slowest, fast⟩)
  · exact stable low high
  · rcases away_from_ends_of_fast bankInRange between lowest slowest fast with ⟨low, high⟩
    exact stable low high

/-- The third harmonic of a stopping motor in the gyro bank of the default loop. -/
theorem stable_away_from_ends_after_stop :
    let actions : List Action := [.update fun _ => some 840, .apply .gyro 1 0.5,
      .moveCursor { motor := 2, harmonic := 2, bank := 0 },
      .update fun motor => if motor = 2 then none else some 0]
    ∃ filter bank coefficients, new {} {} {} = .ok filter ∧
      (filter.perform actions).bank? .gyro = some bank ∧
      (filter.perform actions).coefficients? .gyro 1 2 2 = some coefficients ∧
      (1 ≤ bank.lowest ∧ 7 ≤ bank.micros ∧ bank.micros ≤ 499) ∧
      -1 < coefficients.a2 ∧ coefficients.a2 < 1 := by
  intro actions
  let filter := (ofSettings {} {} {} 125).moveCursor .start
  have built : new {} {} {} = .ok filter := rfl
  have shape : ((filter.perform actions).bank? .gyro).map (fun bank => (bank.harmonics,
      decide (1 ≤ bank.lowest ∧ 7 ≤ bank.micros ∧ bank.micros ≤ 499))) = some (3, true) := by
    decide +kernel
  have motorLt : 2 < (filter.perform actions).motorCount := by decide +kernel
  rcases Option.map_eq_some_iff.mp shape with ⟨bank, present, fields⟩
  rw [Prod.mk.injEq, decide_eq_true_iff] at fields
  have harmonicLt : 2 < bank.harmonics := by omega
  rcases stable_away_from_ends built actions present motorLt harmonicLt with ⟨center, tuned⟩
  rcases tuned 1 (by decide) with ⟨coefficients, _, found, stable⟩
  exact ⟨filter, bank, coefficients, built, present, found, fields.2, stable (.inr fields.2)⟩

/-- In a loop of one millisecond the notches of the D-term are parked at half the sampling rate, and
from the start the product of their poles is one. In a loop of 524 microseconds the computed sine is
below zero there, so with a quality of one the product is above one. -/
theorem poles_leave_disc_at_nyquist :
    (∃ filter, new {} {} { samplesPerLoop := 8 } = .ok filter ∧
      filter.center? .dterm 0 0 0 = some 500 ∧
      (filter.coefficients? .dterm 0 0 0).map Coefficients.a2 = some 1) ∧
    ∃ filter, new { gyro := { harmonics := 3, minHertz := 100, quality := 100 } } {}
        { gyroMicros := 524 } = .ok filter ∧
      (filter.coefficients? .gyro 0 0 0).any (fun coefficients => 1 < coefficients.a2) = true := by
  constructor
  · let filter := (ofSettings {} {} { samplesPerLoop := 8 } 1000).moveCursor .start
    have built : new {} {} { samplesPerLoop := 8 } = .ok filter := rfl
    exact ⟨filter, built, by decide +kernel, by decide +kernel⟩
  · let settings : FilterSettings := { gyro := { harmonics := 3, minHertz := 100, quality := 100 } }
    let filter := (ofSettings settings {} { gyroMicros := 524 } 524).moveCursor .start
    have built : new settings {} { gyroMicros := 524 } = .ok filter := rfl
    exact ⟨filter, built, by decide +kernel⟩

end Filter

end Rotor

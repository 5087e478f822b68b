import Rotor.Proofs.Notch.Ranges
import Rotor.Proofs.Notch.Tuning

/-!
# The band of a bank

Whatever was done to a filter, its notches lie in the band of their bank: between the lowest
frequency and the parking frequency, or at the parking frequency where that is the lower one
(`Filter.exists_center_between`). So a notch is at zero only in a bank whose lowest frequency is
zero, and there a motor that stands still takes it to zero.
-/

namespace Rotor.Filter

open Single

variable {filter : Filter} {settings : FilterSettings} {motors : MotorSettings} {timing : Timing}
variable {signal : Signal} {bank : Bank} {motor harmonic : Nat}

/-- The notches of a cell of a bank that is on are tuned to a center in the band of the bank. -/
theorem exists_center_between (sound : filter.Sound) (inRange : filter.InRange)
    (present : filter.bank? signal = some bank) (motorLt : motor < filter.motorCount)
    (harmonicLt : harmonic < bank.harmonics) :
    ∃ center, Between (min (toRat bank.lowest) (toRat bank.parked)) (toRat bank.parked) center ∧
      ∀ axis < axisCount, filter.center? signal axis motor harmonic = some center ∧
        filter.coefficients? signal axis motor harmonic =
          some (.notch center bank.micros bank.quality) := by
  rcases exists_center_of_sound sound present motorLt harmonicLt with ⟨center, tuned⟩
  have stored : bank.center? motor harmonic = some center := by
    simpa [center?, present, axisCount] using (tuned 0 (by decide)).1
  have bankInRange := inRange.banks bank (mem_of_bank? present).1
  rcases Bank.exists_frequency bankInRange stored with ⟨frequency, followed, rfl⟩
  exact ⟨_, Notch.between_place followed.finite bankInRange.lowest.finite bankInRange.parked.finite,
    tuned⟩

/-- Putting a notch where it is put leaves it there and never is above the parking frequency, and
whatever was done to a filter, every notch of a bank that is on lies in the band of the bank. -/
theorem centers_in_band (built : new settings motors timing = .ok filter) (actions : List Action)
    (present : (filter.perform actions).bank? signal = some bank)
    (motorLt : motor < (filter.perform actions).motorCount)
    (harmonicLt : harmonic < bank.harmonics) :
    (∀ frequency lowest parked,
      Notch.place (Notch.place frequency lowest parked) lowest parked =
        Notch.place frequency lowest parked ∧
      ¬parked < Notch.place frequency lowest parked) ∧
    ∃ center, (∀ axis < axisCount,
        (filter.perform actions).center? signal axis motor harmonic = some center) ∧
      min bank.lowest bank.parked ≤ center ∧ center ≤ bank.parked := by
  refine ⟨fun _ _ _ => ⟨Notch.place_place _ _ _, Notch.not_parked_lt_place _ _ _⟩, ?_⟩
  have inRange := inRange_perform (inRange_new built) actions
  rcases exists_center_between (sound_perform (sound_new built) actions) inRange present motorLt
    harmonicLt with ⟨center, between, tuned⟩
  have bankInRange := inRange.banks bank (mem_of_bank? present).1
  have low := bankInRange.lowest.finite
  have high := bankInRange.parked.finite
  refine ⟨center, fun axis axisLt => (tuned axis axisLt).1, ?_, ?_⟩
  · rw [le_iff_toRat_le (isFinite_min low high) between.finite, toRat_min low high]
    exact between.low_le
  · rw [le_iff_toRat_le between.finite high]
    exact between.le_high

/-- The D-term bank of a slow loop, whose lowest frequency is above half its sampling rate. -/
theorem centers_in_band_on_slow_loop :
    let actions : List Action := [.update fun _ => some 840, .apply .dterm 1 0.5,
      .moveCursor { motor := 1, harmonic := 0, bank := 1 }, .update fun _ => some 90]
    ∃ filter bank center, new {} {} { samplesPerLoop := 64 } = .ok filter ∧
      (filter.perform actions).bank? .dterm = some bank ∧ bank.parked < bank.lowest ∧
      (∀ axis < axisCount, (filter.perform actions).center? .dterm axis 1 0 = some center) ∧
      min bank.lowest bank.parked ≤ center ∧ center ≤ bank.parked ∧
      Notch.place (Notch.place 75 bank.lowest bank.parked) bank.lowest bank.parked =
        Notch.place 75 bank.lowest bank.parked := by
  intro actions
  let filter := (ofSettings {} {} { samplesPerLoop := 64 } 8000).moveCursor .start
  have built : new {} {} { samplesPerLoop := 64 } = .ok filter := rfl
  have shape : ((filter.perform actions).bank? .dterm).map
      (fun bank => (bank.harmonics, decide (bank.parked < bank.lowest))) = some (1, true) := by
    decide +kernel
  have motorLt : 1 < (filter.perform actions).motorCount := by decide +kernel
  rcases Option.map_eq_some_iff.mp shape with ⟨bank, present, fields⟩
  rw [Prod.mk.injEq, decide_eq_true_iff] at fields
  have harmonicLt : 0 < bank.harmonics := by omega
  rcases centers_in_band built actions present motorLt harmonicLt with
    ⟨placing, center, stored, low, high⟩
  exact ⟨filter, bank, center, built, present, fields.2, stored, low, high, (placing _ _ _).1⟩

/-- No notch is ever below zero, and none is at zero in a bank whose lowest frequency is above
it. -/
theorem centers_positive (built : new settings motors timing = .ok filter) (actions : List Action)
    (present : (filter.perform actions).bank? signal = some bank)
    (motorLt : motor < (filter.perform actions).motorCount)
    (harmonicLt : harmonic < bank.harmonics) :
    ∃ center, (∀ axis < axisCount,
        (filter.perform actions).center? signal axis motor harmonic = some center) ∧
      0 ≤ center ∧ (0 < bank.lowest → 0 < center) := by
  have inRange := inRange_perform (inRange_new built) actions
  rcases exists_center_between (sound_perform (sound_new built) actions) inRange present motorLt
    harmonicLt with ⟨center, between, tuned⟩
  have bankInRange := inRange.banks bank (mem_of_bank? present).1
  have low := bankInRange.lowest
  have parkedPos : 0 < toRat bank.parked := lt_of_lt_of_le (by norm_num) bankInRange.parked.low_le
  refine ⟨center, fun axis axisLt => (tuned axis axisLt).1, ?_, ?_⟩
  · rw [le_iff_toRat_le between_zero.finite between.finite]
    exact (le_min low.low_le parkedPos.le).trans between.low_le
  · intro lowestPos
    rw [lt_iff_toRat_lt between_zero.finite low.finite] at lowestPos
    rw [lt_iff_toRat_lt between_zero.finite between.finite]
    exact (lt_min lowestPos parkedPos).trans_le between.low_le

/-- A gyro bank with the least lowest frequency that is not zero, once its motors have stopped. -/
theorem centers_positive_after_stop :
    let settings : FilterSettings := { gyro := { harmonics := 3, minHertz := 1, quality := 500 } }
    let actions : List Action := [.update fun _ => some 840, .update fun _ => some 0,
      .update fun _ => none]
    ∃ filter bank center, new settings {} {} = .ok filter ∧
      (filter.perform actions).bank? .gyro = some bank ∧ 0 < bank.lowest ∧
      (∀ axis < axisCount, (filter.perform actions).center? .gyro axis 0 2 = some center) ∧
      0 < center := by
  intro settings actions
  let filter := (ofSettings settings {} {} 125).moveCursor .start
  have built : new settings {} {} = .ok filter := rfl
  have shape : ((filter.perform actions).bank? .gyro).map
      (fun bank => (bank.harmonics, decide (0 < bank.lowest))) = some (3, true) := by
    decide +kernel
  have motorLt : 0 < (filter.perform actions).motorCount := by decide +kernel
  rcases Option.map_eq_some_iff.mp shape with ⟨bank, present, fields⟩
  rw [Prod.mk.injEq, decide_eq_true_iff] at fields
  have harmonicLt : 2 < bank.harmonics := by omega
  rcases centers_positive built actions present motorLt harmonicLt with
    ⟨center, stored, _, positive⟩
  exact ⟨filter, bank, center, built, present, fields.2, stored, positive fields.2⟩

/-- Where the lowest frequency is zero, a motor that stands still is not told from one that turns,
and one turn of the control loop takes its notch from the parking frequency to zero. -/
theorem center_at_zero :
    let settings : FilterSettings := { gyro := { harmonics := 3, minHertz := 0, quality := 500 } }
    ∃ filter, new settings {} {} = .ok filter ∧
      filter.center? .gyro 0 0 0 = some 1000 ∧
      (filter.update fun _ => none).center? .gyro 0 0 0 = some 0 := by
  intro settings
  let filter := (ofSettings settings {} {} 125).moveCursor .start
  have built : new settings {} {} = .ok filter := rfl
  exact ⟨filter, built, by decide +kernel, by decide +kernel⟩

end Rotor.Filter

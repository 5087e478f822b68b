import Rotor.Proofs.Notch.Placement
import Rotor.Proofs.Notch.Runs

/-!
# Ranges of the values in a filter

No value that decides where a notch is put is ever infinite or a NaN, whatever the telemetry: the
lowpasses stay between zero and the greatest count, so the speeds have a bound, and with the speeds
the frequencies that notches follow (`Filter.InRange`). A filter is built like this and everything
that is done to it keeps it so (`Filter.inRange_perform`).

A bank in range stores only frequencies at which a notch can be put (`Bank.InRange.placed`).
-/

namespace Rotor

open Single

section Settings

theorem MotorSettings.two_le_poleCount {motors : MotorSettings}
    (accepted : motors.validate = .ok ()) : 2 ≤ motors.poleCount.toNat := by
  simp only [MotorSettings.validate] at accepted
  split at accepted
  · simp at accepted
  · split at accepted
    · simp at accepted
    · next poles =>
      rw [not_or, UInt8.lt_iff_toNat_lt] at poles
      exact not_lt.mp poles.1

theorem BankSettings.quality_ne_zero {settings : BankSettings}
    (accepted : settings.validate = .ok ()) (enabled : settings.isEnabled = true) :
    settings.quality ≠ 0 := by
  intro zero
  simp only [BankSettings.validate, enabled, zero] at accepted
  split at accepted <;> simp at accepted

theorem FilterSettings.validate_banks {settings : FilterSettings}
    (accepted : settings.validate = .ok ()) :
    settings.gyro.validate = .ok () ∧ settings.dterm.validate = .ok () := by
  simp only [FilterSettings.validate, bind, Except.bind] at accepted
  cases gyro : settings.gyro.validate with
  | error cause => simp [gyro] at accepted
  | ok _ => exact ⟨rfl, by simpa [gyro] using accepted⟩

theorem Timing.micros_ne_zero {timing : Timing} {micros : UInt32}
    (accepted : timing.validate = .ok ()) (loop : timing.loopMicros = .ok micros) :
    timing.gyroMicros ≠ 0 ∧ micros ≠ 0 := by
  simp only [Timing.validate] at accepted
  split at accepted
  · simp at accepted
  · next times =>
    rw [not_or] at times
    refine ⟨times.1, ?_⟩
    simp only [Timing.loopMicros] at loop
    cases product : Fault.checkedMul UInt32.size timing.gyroMicros.toNat
        timing.samplesPerLoop.toNat with
    | error fault => simp [product, Except.map] at loop
    | ok total =>
        rcases Fault.checkedMul_eq_ok_iff.mp product with ⟨few, rfl⟩
        simp only [product, Except.map, Except.ok.injEq] at loop
        subst loop
        intro zero
        have words := congrArg UInt32.toNat zero
        rw [UInt32.toNat_ofNat_of_lt' few] at words
        rcases Nat.mul_eq_zero.mp words with none | none
        · exact times.1 (UInt32.toNat_inj.mp none)
        · exact times.2 (UInt8.toNat_inj.mp none)

end Settings

/-- A lowpass that goes toward its input and has seen telemetry counts only. -/
structure Lowpass.InRange (lowpass : Lowpass) : Prop where
  gain : Between 0 1 lowpass.gain
  state : Between 0 65536 lowpass.state

namespace Lowpass

variable {lowpass : Lowpass} {input : Float32}

/-- A state that moves toward a count by a share of their distance. Rounding can take it past the
count, but not to more than the power of two above all counts. -/
theorem between_move {gain state step : Float32} (share : Between 0 1 gain)
    (before : Between 0 65536 state) (count : Between 0 65535 input)
    (distance : Rounded (toRat input - toRat state) step) :
    Between 0 65536 (state + gain * step) := by
  rcases count with ⟨_, inputLow, inputHigh⟩
  have stateLow := before.low_le
  have stateHigh := before.le_high
  have product (few : |toRat step| ≤ 2 ^ 127) :
      Rounded (toRat gain * toRat step) (gain * step) := by
    apply rounded_mul share.finite distance.finite
    rw [abs_mul, abs_of_nonneg share.low_le]
    exact (mul_le_of_le_one_left (abs_nonneg _) share.le_high).trans few
  have highOnGrid : OnGrid 65536 := onGrid_ofNat (by decide)
  rcases le_total (toRat state) (toRat input) with rises | falls
  · have stepLow : 0 ≤ toRat step := distance.ge_of_ge onGrid_zero (by linarith)
    have stepHigh : toRat step ≤ toRat input - toRat state + 1 := by
      have error := (abs_le.mp distance.error_le).2
      rw [abs_of_nonneg (by linarith)] at error
      linarith
    have moved := (product (by rw [abs_of_nonneg stepLow]; linarith)).between onGrid_zero
      (onGrid_toRat step) (mul_nonneg share.low_le stepLow)
      (mul_le_of_le_one_left stepLow share.le_high)
    exact (between_self before.finite).add moved onGrid_zero highOnGrid (by linarith) (by linarith)
      (by norm_num) (by norm_num)
  · have stepLow : -toRat state ≤ toRat step :=
      distance.ge_of_ge (onGrid_toRat _).neg (by linarith)
    have stepHigh : toRat step ≤ 0 := distance.le_of_le onGrid_zero (by linarith)
    have moved := (product (by rw [abs_of_nonpos stepHigh]; linarith)).between
      (onGrid_toRat step) onGrid_zero (le_mul_of_le_one_left stepHigh share.le_high)
      (mul_nonpos_of_nonneg_of_nonpos share.low_le stepHigh)
    exact (between_self before.finite).add moved onGrid_zero highOnGrid (by linarith) (by linarith)
      (by norm_num) (by norm_num)

theorem inRange_apply (inRange : lowpass.InRange) (count : Between 0 65535 input) :
    (lowpass.apply input).InRange := by
  rcases inRange with ⟨gain, state⟩
  have distance := rounded_sub count.finite state.finite (abs_le.mpr
    ⟨by linarith [count.low_le, state.le_high], by linarith [count.le_high, state.low_le]⟩)
  exact ⟨gain, between_move gain state count distance⟩

/-- The gain is the share of one time in the sum with another. -/
theorem between_gainFor {seconds : Float32} (time : Between 0 8192 seconds) :
    Between 0 1 (gainFor Notch.speedCutoff seconds) := by
  have shape : parts (1 / (2 * Signal.pi * Notch.speedCutoff)) =
      .finite .positive 9114203 (-33) (by decide) := rfl
  have other : Between (9114203 / 2 ^ 33) (9114203 / 2 ^ 33)
      (1 / (2 * Signal.pi * Notch.speedCutoff)) := between_of_parts shape (by norm_num)
  simp only [gainFor]
  generalize 1 / (2 * Signal.pi * Notch.speedCutoff) = constant at other ⊢
  rcases time with ⟨finite, nonneg, few⟩
  have positive : 0 < toRat constant := lt_of_lt_of_le (by norm_num) other.low_le
  have small : toRat constant ≤ 1 := other.le_high.trans (by norm_num)
  have sum := rounded_add other.finite finite (abs_le.mpr ⟨by linarith, by linarith⟩)
  have sumPos : 0 < toRat (constant + seconds) :=
    positive.trans_le (sum.ge_of_ge (onGrid_toRat constant) (by linarith))
  have share : toRat seconds / toRat (constant + seconds) ≤ 1 :=
    (div_le_one sumPos).mpr (sum.ge_of_ge (onGrid_toRat seconds) (by linarith))
  have shareNonneg := div_nonneg nonneg sumPos.le
  have quotient := rounded_div finite sum.finite sumPos.ne'
    (abs_le.mpr ⟨by linarith, by linarith⟩)
  exact quotient.between onGrid_zero onGrid_one shareNonneg share

end Lowpass

/-- A smoother of counts. -/
structure Smoother.InRange (smoother : Smoother) : Prop where
  filters : ∀ lowpass ∈ smoother.filters, lowpass.InRange
  hertzPerCount : Between 0 2 smoother.hertzPerCount

namespace Smoother

variable {smoother : Smoother}

theorem inRange_update (inRange : smoother.InRange) (motor : Nat) (reply : Option UInt16) :
    (smoother.update motor reply).InRange := by
  cases reply with
  | none => exact inRange
  | some count =>
      refine ⟨?_, inRange.hertzPerCount⟩
      apply forall_mem_modify inRange.filters
      intro lowpass lowpassInRange
      have countLe : (count.toNat : ℚ) ≤ 65535 := by
        exact_mod_cast Nat.le_of_lt_succ count.toNat_lt
      exact Lowpass.inRange_apply lowpassInRange
        ((between_ofUInt16 count).mono (Nat.cast_nonneg _) countLe)

theorem inRange_updateAll (inRange : smoother.InRange) (motorCount : Nat)
    (telemetry : Nat → Option UInt16) : (smoother.updateAll motorCount telemetry).InRange := by
  simp only [updateAll]
  generalize List.range motorCount = motors
  induction motors generalizing smoother with
  | nil => exact inRange
  | cons motor rest ih => exact ih (inRange_update inRange motor (telemetry motor))

theorem between_count (inRange : smoother.InRange) (motor : Nat) :
    Between 0 65536 (smoother.count motor) := by
  simp only [count]
  split
  · next lowpass found => exact (inRange.filters lowpass (List.mem_of_getElem? found)).state
  · exact between_zero.mono le_rfl (by norm_num)

theorem between_hertz (inRange : smoother.InRange) (motor : Nat) :
    Between 0 131072 (smoother.hertz motor) :=
  (between_count inRange motor).mul inRange.hertzPerCount le_rfl le_rfl onGrid_zero
    ⟨1, 17, by decide, by decide, by norm_num⟩ (by norm_num) (by norm_num) (by norm_num)

theorem between_millionth :
    Between (8796093 / 2 ^ 43) (8796093 / 2 ^ 43) (0.000001 : Float32) := by
  have shape : parts (0.000001 : Float32) = .finite .positive 8796093 (-43) (by decide) := rfl
  exact between_of_parts shape (by norm_num)

theorem between_hertzPerCount {poles : UInt8} (some : 2 ≤ poles.toNat) :
    Between 0 2 (Notch.hertzPerCount poles) := by
  have shape : parts (100 / 60 : Float32) = .finite .positive 13981013 (-23) (by decide) := rfl
  have minutes : Between (13981013 / 2 ^ 23) (13981013 / 2 ^ 23) (100 / 60 : Float32) :=
    between_of_parts shape (by norm_num)
  have low : (2 : ℚ) ≤ poles.toNat := by exact_mod_cast some
  have high : (poles.toNat : ℚ) ≤ 2 ^ 8 := by exact_mod_cast poles.toNat_lt.le
  have pairs : Between 1 128 (poles.toFloat32 / 2) :=
    ((between_ofUInt8 poles).mono low high).div (between_ofNat (by decide)) (by norm_num)
      (by norm_num) onGrid_one (onGrid_ofNat (by decide)) (by norm_num) (by norm_num) (by norm_num)
  exact minutes.div pairs (by norm_num) one_pos onGrid_zero
    (onGrid_ofNat (by decide)) (by norm_num) (by norm_num) (by norm_num)

theorem inRange_new {poles : UInt8} (some : 2 ≤ poles.toNat) (micros : UInt32) :
    (new poles micros).InRange := by
  have time : Between 0 8192 (micros.toFloat32 * 0.000001) :=
    (between_ofUInt32 onGrid_zero (Nat.cast_nonneg _)).mul between_millionth le_rfl
      (by norm_num) onGrid_zero (onGrid_ofNat (by decide)) (by norm_num)
      (by norm_num) (by norm_num)
  refine ⟨?_, between_hertzPerCount some⟩
  intro lowpass mem
  rw [List.eq_of_mem_replicate mem]
  exact ⟨Lowpass.between_gainFor time, between_zero.mono le_rfl (by norm_num)⟩

end Smoother

/-- A bank for accepted settings whose notches are where they can be put. -/
structure Bank.InRange (bank : Bank) : Prop where
  lowest : Between 0 255 bank.lowest
  quality : Between (81 / 2 ^ 13) 656 bank.quality
  micros : Between 1 (2 ^ 32) bank.micros
  ceiling : bank.parked = Bank.parkingFrequency bank.micros
  placed : ∀ row ∈ bank.centers, ∀ center ∈ row, ∃ frequency, Between 0 (2 ^ 49) frequency ∧
    center = Notch.place frequency bank.lowest bank.parked

namespace Bank

variable {bank : Bank}

/-- Half the sampling rate, by the longest time between two samples. -/
theorem between_nyquist {micros : Float32} {low slowest : ℚ} (time : Between 1 slowest micros)
    (onGrid : OnGrid low) (le : low ≤ 500000 / slowest) :
    Between low 500000 (500000 / micros) := by
  have second : Between 500000 500000 (500000 : Float32) := between_ofNat (by decide)
  exact second.div time (by norm_num) one_pos onGrid
    (onGrid_ofNat (by decide)) le (by norm_num) (by norm_num)

theorem between_parkingFrequency {micros : Float32} (time : Between 1 (2 ^ 32) micros) :
    Between (1 / 2 ^ 14) 1000 (parkingFrequency micros) := by
  have nyquist := between_nyquist time ⟨1, -14, by decide, by decide, by norm_num⟩
    (by norm_num : (1 / 2 ^ 14 : ℚ) ≤ _)
  have thousand : Between 1000 1000 (1000 : Float32) := between_ofNat (by decide)
  simp only [parkingFrequency]
  split
  · next below =>
    rw [lt_iff_toRat_lt nyquist.finite thousand.finite, thousand.toRat_eq] at below
    exact ⟨nyquist.finite, nyquist.low_le, below.le⟩
  · exact thousand.mono (by norm_num) le_rfl

theorem InRange.parked (inRange : bank.InRange) : Between (1 / 2 ^ 14) 1000 bank.parked :=
  inRange.ceiling ▸ between_parkingFrequency inRange.micros

/-- In fast loops half the sampling rate is above the parking frequency. -/
theorem parkingFrequency_of_fast {micros : Float32} (time : Between 1 499 micros) :
    parkingFrequency micros = 1000 := by
  have nyquist := between_nyquist time (onGrid_ofNat (by decide))
    (by norm_num : (1002 : ℚ) ≤ _)
  have thousand : Between 1000 1000 (1000 : Float32) := between_ofNat (by decide)
  have above : ¬500000 / micros < 1000 := by
    rw [lt_iff_toRat_lt nyquist.finite thousand.finite, thousand.toRat_eq, not_lt]
    linarith [nyquist.low_le]
  simp [parkingFrequency, above]

theorem inRange_new (signal : Signal) {settings : BankSettings} (some : settings.quality ≠ 0)
    {micros : UInt32} (time : micros ≠ 0) (motorCount : Nat) :
    (new signal settings.harmonics.toNat settings.minHertz.toFloat32 settings.qualityRatio
      micros.toFloat32 motorCount).InRange := by
  have microsBetween : Between 1 (2 ^ 32) micros.toFloat32 := by
    have positive : (1 : ℚ) ≤ micros.toNat := by
      exact_mod_cast Nat.pos_of_ne_zero fun zero => time (UInt32.toNat_inj.mp zero)
    exact between_ofUInt32 onGrid_one positive
  have parked := between_parkingFrequency microsBetween
  refine ⟨?_, ?_, microsBetween, rfl, ?_⟩
  · have few : (settings.minHertz.toNat : ℚ) ≤ 255 := by
      exact_mod_cast Nat.le_of_lt_succ settings.minHertz.toNat_lt
    exact (between_ofUInt8 _).mono (Nat.cast_nonneg _) few
  · have low : (1 : ℚ) ≤ settings.quality.toNat := by
      exact_mod_cast Nat.pos_of_ne_zero fun zero => some (UInt16.toNat_inj.mp zero)
    have high : (settings.quality.toNat : ℚ) ≤ 65535 := by
      exact_mod_cast Nat.le_of_lt_succ settings.quality.toNat_lt
    have hundred : Between 100 100 (100 : Float32) := between_ofNat (by decide)
    exact ((between_ofUInt16 _).mono low high).div hundred one_pos.le
      (by norm_num) ⟨81, -13, by decide, by decide, by norm_num⟩
      (onGrid_ofNat (by decide)) (by norm_num) (by norm_num) (by norm_num)
  · intro row rowMem center centerMem
    simp only [new] at rowMem
    rw [List.eq_of_mem_replicate rowMem] at centerMem
    rw [List.eq_of_mem_replicate centerMem]
    exact ⟨_, parked.mono (by norm_num) (by norm_num), (Notch.place_parked _ _).symm⟩

theorem inRange_retune (inRange : bank.InRange) (motor harmonic : Nat) {frequency : Float32}
    (followed : Between 0 (2 ^ 49) frequency) :
    (bank.retune motor harmonic (Notch.place frequency bank.lowest bank.parked)).InRange := by
  refine ⟨inRange.lowest, inRange.quality, inRange.micros, inRange.ceiling, ?_⟩
  apply forall_mem_modify inRange.placed
  intro row rowPlaced center centerMem
  rcases List.mem_or_eq_of_mem_set centerMem with before | rfl
  · exact rowPlaced center before
  · exact ⟨frequency, followed, rfl⟩

theorem inRange_apply (inRange : bank.InRange) (axis : Nat) (value : Float32) :
    (bank.apply axis value).2.InRange := by
  simp only [apply]
  split
  · exact inRange
  · exact ⟨inRange.lowest, inRange.quality, inRange.micros, inRange.ceiling, inRange.placed⟩

theorem exists_frequency (inRange : bank.InRange) {motor harmonic : Nat} {center : Float32}
    (stored : bank.center? motor harmonic = some center) :
    ∃ frequency, Between 0 (2 ^ 49) frequency ∧
      center = Notch.place frequency bank.lowest bank.parked := by
  simp only [center?, Option.bind_eq_bind, Option.bind_eq_some_iff] at stored
  rcases stored with ⟨row, rowFound, found⟩
  exact inRange.placed row (List.mem_of_getElem? rowFound) center (List.mem_of_getElem? found)

end Bank

/-- A filter all of whose values are in range. -/
structure Filter.InRange (filter : Filter) : Prop where
  smoother : filter.smoother.InRange
  speeds : ∀ speed ∈ filter.speeds, Between 0 131072 speed
  banks : ∀ bank ∈ filter.banks, bank.InRange

namespace Filter

variable {filter next : Filter} {settings : FilterSettings} {motors : MotorSettings}
variable {timing : Timing}

theorem between_speed (inRange : filter.InRange) (motor : Nat) :
    Between 0 131072 (filter.speed motor) := by
  rw [speed, List.getD_eq_getElem?_getD]
  cases found : filter.speeds[motor]? with
  | none => exact between_zero.mono le_rfl (by norm_num)
  | some speed => exact inRange.speeds speed (List.mem_of_getElem? found)

theorem inRange_retuneNext (inRange : filter.InRange) : filter.retuneNext.InRange := by
  refine ⟨inRange.smoother, ?_, ?_⟩
  · intro speed speedMem
    simp only [retuneNext, advance] at speedMem
    split at speedMem
    · rcases List.mem_or_eq_of_mem_set speedMem with before | rfl
      · exact inRange.speeds speed before
      · exact Smoother.between_hertz inRange.smoother _
    · exact inRange.speeds speed speedMem
  · apply forall_mem_modify inRange.banks
    intro bank bankInRange
    apply Bank.inRange_retune bankInRange
    exact (between_ofUInt32 onGrid_zero (Nat.cast_nonneg _)).mul (between_speed inRange _) le_rfl
      le_rfl onGrid_zero ⟨1, 49, by decide, by decide, by norm_num⟩ (by norm_num) (by norm_num)
      (by norm_num)

theorem inRange_update (inRange : filter.InRange) (telemetry : Nat → Option UInt16) :
    (filter.update telemetry).InRange := by
  simp only [update]
  split
  · exact inRange
  · have smoothed : (filter.smoothed telemetry).InRange :=
      ⟨Smoother.inRange_updateAll inRange.smoother _ _, inRange.speeds, inRange.banks⟩
    exact repeat_induction smoothed (fun _ => inRange_retuneNext) _

theorem inRange_apply (inRange : filter.InRange) (signal : Signal) (axis : Nat) (value : Float32) :
    (filter.apply signal axis value).2.InRange := by
  simp only [apply]
  split
  · exact inRange
  · next bank found =>
    refine ⟨inRange.smoother, inRange.speeds, ?_⟩
    intro other otherMem
    rcases List.mem_map.mp otherMem with ⟨before, beforeMem, rfl⟩
    split
    · exact Bank.inRange_apply (inRange.banks bank (mem_of_bank? found).1) axis value
    · exact inRange.banks before beforeMem

theorem inRange_ofSettings (checked : checkSettings settings motors timing = .ok ())
    {micros : UInt32} (loop : timing.loopMicros = .ok micros) (cursor : Cursor) :
    ((ofSettings settings motors timing micros).moveCursor cursor).InRange := by
  rcases validate_of_checkSettings checked with ⟨filterOk, motorsOk, timingOk⟩
  have poles := MotorSettings.two_le_poleCount motorsOk
  rcases Timing.micros_ne_zero timingOk loop with ⟨gyroTime, loopTime⟩
  rcases FilterSettings.validate_banks filterOk with ⟨gyroOk, dtermOk⟩
  refine ⟨Smoother.inRange_new poles micros, ?_, ?_⟩
  · intro speed speedMem
    rw [List.eq_of_mem_replicate speedMem]
    exact between_zero.mono le_rfl (by norm_num)
  · intro bank built
    rcases exists_settings_of_mem_banksFor built with
      ⟨signal, chosen, time, _, enabled, ⟨rfl, rfl⟩ | ⟨rfl, rfl⟩, rfl⟩
    · exact Bank.inRange_new signal (BankSettings.quality_ne_zero gyroOk enabled) gyroTime _
    · exact Bank.inRange_new signal (BankSettings.quality_ne_zero dtermOk enabled) loopTime _

theorem inRange_new (built : new settings motors timing = .ok filter) : filter.InRange := by
  rcases new_eq_ok_iff.mp built with ⟨checked, micros, loop, rfl⟩
  exact inRange_ofSettings checked loop .start

theorem inRange_act (inRange : filter.InRange) (action : Action) : (filter.act action).InRange := by
  cases action with
  | update telemetry => exact inRange_update inRange telemetry
  | apply signal axis value => exact inRange_apply inRange signal axis value
  | moveCursor cursor => exact ⟨inRange.smoother, inRange.speeds, inRange.banks⟩
  | rebuild settings motors timing =>
      simp only [act]
      split
      · next rebuilt =>
        rcases rebuild_eq_ok_iff.mp rebuilt with ⟨checked, micros, loop, rfl⟩
        exact inRange_ofSettings checked loop filter.cursor
      · exact inRange

theorem inRange_perform (inRange : filter.InRange) (actions : List Action) :
    (filter.perform actions).InRange := by
  induction actions generalizing filter with
  | nil => exact inRange
  | cons action rest ih => exact ih (inRange_act inRange action)

end Filter

end Rotor

import Rotor.Proofs.Notch.Ranges
import Rotor.Proofs.Notch.Tuning

/-!
# One speed for each motor

While the cursor goes through the cells of a motor, the cells behind it and all cells of the other
motors are where the speeds that the filter keeps put them (`Filter.Coherent`). A retune keeps this:
it puts the cell of the cursor there, and it changes the speed of a motor only when the cursor comes
to the first cell of that motor, with no cell of it behind. A fresh filter starts like this where
the lowest frequencies are above zero, since then the notches of motors that stand still are parked.
So the notches of a motor follow one speed in all banks, except while the cursor is among them.
-/

namespace Rotor

open Single

namespace Cursor

variable {cursor cell : Cursor} {motorCount : Nat} {sizes : List Nat}

/-- A cell is not ahead of the cursor among the cells of the cursor's motor. -/
def Passed (cursor cell : Cursor) : Prop :=
  cell.motor ≠ cursor.motor ∨ cell.bank < cursor.bank ∨
    cell.bank = cursor.bank ∧ cell.harmonic < cursor.harmonic

/-- A step passes the cell of the cursor and no other. -/
theorem passed_of_passed_next (within : cell.Within motorCount sizes)
    (passed : (cursor.next motorCount sizes).Passed cell) : cell = cursor ∨ cursor.Passed cell := by
  by_cases otherMotor : cell.motor = cursor.motor
  · have order : cell.bank < cursor.bank ∨
        cell.bank = cursor.bank ∧ cell.harmonic ≤ cursor.harmonic := by
      have bankLt := within.bank_lt
      have harmonicLt := within.harmonic_lt
      have following := following_next cursor motorCount sizes
      generalize cursor.next motorCount sizes = next at passed following
      cases following with
      | harmonic more =>
          simp only [Passed, otherMotor] at passed
          omega
      | bank last more =>
          simp only [Passed, otherMotor] at passed
          by_cases sameBank : cell.bank = cursor.bank
          · rw [sameBank] at harmonicLt
            omega
          · omega
      | motor last lastBank =>
          by_cases sameBank : cell.bank = cursor.bank
          · rw [sameBank] at harmonicLt
            omega
          · omega
    rcases order with before | ⟨sameBank, upTo⟩
    · exact .inr (.inr (.inl before))
    · rcases Nat.lt_or_eq_of_le upTo with before | sameHarmonic
      · exact .inr (.inr (.inr ⟨sameBank, before⟩))
      · left
        cases cell
        cases cursor
        simp_all
  · exact .inr (.inl otherMotor)

/-- When the cursor comes to a motor, it has passed no cell of it. -/
theorem not_passed_next (ends : cursor.endsMotor sizes = true)
    (comes : (cursor.next motorCount sizes).motor = cell.motor) :
    ¬(cursor.next motorCount sizes).Passed cell := by
  simp only [endsMotor, decide_eq_true_eq] at ends
  have following := following_next cursor motorCount sizes
  generalize cursor.next motorCount sizes = next at comes following ⊢
  cases following with
  | harmonic more => omega
  | bank last more => omega
  | motor last lastBank =>
      simp only [Passed, ← comes]
      omega

end Cursor

theorem Bank.center?_new (signal : Signal) {harmonics : Nat} (lowest quality micros : Float32)
    {motorCount motor harmonic : Nat} (motorLt : motor < motorCount)
    (harmonicLt : harmonic < harmonics) :
    (new signal harmonics lowest quality micros motorCount).center? motor harmonic =
      some (parkingFrequency micros) := by
  simp [new, center?, motorLt, harmonicLt]

/-- The banks that settings switch on have a lowest frequency above zero. -/
def FilterSettings.AboveZero (settings : FilterSettings) (motors : MotorSettings) : Prop :=
  motors.telemetry = true → ∀ chosen ∈ [settings.gyro, settings.dterm],
    chosen.isEnabled = true → chosen.minHertz ≠ 0

namespace Filter

variable {filter : Filter} {settings : FilterSettings} {motors : MotorSettings} {timing : Timing}

/-- Every cell that is not ahead of the cursor is where the speed of its motor puts it. -/
def Coherent (filter : Filter) : Prop :=
  ∀ cell : Cursor, cell.Within filter.motorCount filter.sizes → filter.cursor.Passed cell →
    filter.centerAt cell = filter.targetAt cell

section Steps

theorem targetAt_retuneNext {cell : Cursor}
    (sameSpeed : filter.retuneNext.speed cell.motor = filter.speed cell.motor) :
    filter.retuneNext.targetAt cell = filter.targetAt cell := by
  rw [targetAt, targetAt, getElem?_banks_retuneNext, Option.map_map]
  congr 1
  funext bank
  simp only [Function.comp_apply, targetIn, sameSpeed]
  split <;> rfl

theorem coherent_retuneNext (running : filter.Running) (coherent : filter.Coherent) :
    filter.retuneNext.Coherent := by
  intro cell within passed
  rw [(sameBuild_retuneNext filter).motorCount, (sameBuild_retuneNext filter).sizes] at within
  rw [cursor_retuneNext] at passed
  have sameSpeed : filter.retuneNext.speed cell.motor = filter.speed cell.motor := by
    rw [speed_retuneNext running, if_neg]
    rintro ⟨ends, comes⟩
    exact Cursor.not_passed_next ends comes passed
  rw [targetAt_retuneNext sameSpeed, centerAt_retuneNext running]
  split
  · rfl
  · next other =>
    rcases Cursor.passed_of_passed_next within passed with here | before
    · exact absurd here other
    · exact coherent cell within before

theorem coherent_repeat (running : filter.Running) (coherent : filter.Coherent) (count : Nat) :
    (Nat.repeat retuneNext count filter).Coherent := by
  induction count with
  | zero => exact coherent
  | succ count ih => exact coherent_retuneNext (running_repeat running count) ih

theorem coherent_update (sound : filter.Sound) (coherent : filter.Coherent)
    (telemetry : Nat → Option UInt16) : (filter.update telemetry).Coherent := by
  rcases idle_or_running sound with idle | running
  · rwa [update_of_idle idle]
  · rw [update_of_running running]
    exact coherent_repeat (running_smoothed running telemetry) coherent _

/-- A sample changes no frequency and no bound of a bank. -/
theorem coherent_apply (sound : filter.Sound) (coherent : filter.Coherent) (signal : Signal)
    (axis : Nat) (value : Float32) : (filter.apply signal axis value).2.Coherent := by
  intro cell within passed
  have same := sameBuild_apply sound signal axis value
  rw [same.motorCount, same.sizes] at within
  rw [cursor_apply] at passed
  have kept := coherent cell within passed
  have centers : (filter.apply signal axis value).2.centerAt cell = filter.centerAt cell := by
    rw [centerAt, centerAt, banks_apply sound, List.getElem?_map, Option.bind_map]
    congr 1
    funext bank
    simp only [Function.comp_apply, Bank.center?]
    split
    · rw [Bank.centers_apply]
    · rfl
  have targets : (filter.apply signal axis value).2.targetAt cell = filter.targetAt cell := by
    rw [targetAt, targetAt, banks_apply sound, List.getElem?_map, Option.map_map]
    congr 1
    funext bank
    simp only [Function.comp_apply, targetIn, speed, speeds_apply]
    split
    · rw [Bank.lowest_apply, Bank.parked_apply]
    · rfl
  rw [centers, targets, kept]

end Steps

section Build

/-- The notches of a motor that has no speed are parked. -/
theorem place_at_rest {minHertz : UInt8} (above : minHertz ≠ 0) (harmonic : UInt32)
    (parked : Float32) :
    Notch.place (harmonic.toFloat32 * 0) minHertz.toFloat32 parked = parked := by
  have positive : (1 : ℚ) ≤ minHertz.toNat := by
    exact_mod_cast Nat.pos_of_ne_zero fun zero => above (UInt8.toNat_inj.mp zero)
  have few : (minHertz.toNat : ℚ) ≤ 255 := by
    exact_mod_cast Nat.le_of_lt_succ minHertz.toNat_lt
  have still : Between 0 0 (harmonic.toFloat32 * 0) :=
    (between_ofUInt32 onGrid_zero (Nat.cast_nonneg _)).mul between_zero le_rfl le_rfl onGrid_zero
      onGrid_zero (by norm_num) (by norm_num) (by norm_num)
  exact Notch.place_of_zero still ((between_ofUInt8 _).mono positive few)

/-- A fresh filter has all notches parked, and that is where motors that stand still put them. -/
theorem coherent_ofSettings (aboveZero : settings.AboveZero motors) (micros : UInt32)
    (cursor : Cursor) :
    ((ofSettings settings motors timing micros).moveCursor cursor).Coherent := by
  intro cell within _
  rcases within with ⟨motorLt, bankLt, harmonicLt⟩
  rw [List.getD_eq_getElem _ _ bankLt] at harmonicLt
  simp only [sizes, moveCursor, ofSettings, List.length_map, List.getElem_map] at bankLt harmonicLt
  have found : ((ofSettings settings motors timing micros).moveCursor cursor).banks[cell.bank]? =
      some (banksFor settings motors timing micros)[cell.bank] := List.getElem?_eq_getElem bankLt
  have still :
      ((ofSettings settings motors timing micros).moveCursor cursor).speed cell.motor = 0 := by
    simp only [speed, moveCursor, ofSettings, List.getD_eq_getElem?_getD, List.getElem?_replicate]
    split <;> rfl
  have built := List.getElem_mem bankLt
  rw [centerAt, targetAt, found, Option.bind_some, Option.map_some]
  generalize (banksFor settings motors timing micros)[cell.bank] = bank at built harmonicLt ⊢
  rcases exists_settings_of_mem_banksFor built with
    ⟨signal, chosen, time, telemetry, enabled, origin, rfl⟩
  have chosenMem : chosen ∈ [settings.gyro, settings.dterm] := by
    rcases origin with ⟨rfl, _⟩ | ⟨rfl, _⟩ <;> simp
  have atRest := place_at_rest (aboveZero telemetry chosen chosenMem enabled)
    (UInt32.ofNat (cell.harmonic + 1)) (Bank.parkingFrequency time.toFloat32)
  rw [targetIn, still]
  exact (Bank.center?_new signal _ _ _ motorLt harmonicLt).trans (congrArg some atRest.symm)

end Build

section Runs

/-- An action that neither moves the cursor nor rebuilds a filter for a lowest frequency of zero. -/
def Action.Orderly : Action → Prop
  | .update _ => True
  | .apply _ _ _ => True
  | .moveCursor _ => False
  | .rebuild settings motors timing =>
      ∀ filter rebuilt : Filter, filter.rebuild settings motors timing = .ok rebuilt →
        settings.AboveZero motors

theorem coherent_act (sound : filter.Sound) (coherent : filter.Coherent) {action : Action}
    (orderly : action.Orderly) : (filter.act action).Coherent := by
  cases action with
  | update telemetry => exact coherent_update sound coherent telemetry
  | apply signal axis value => exact coherent_apply sound coherent signal axis value
  | moveCursor cursor => exact orderly.elim
  | rebuild settings motors timing =>
      simp only [act]
      split
      · next rebuilt accepted =>
        have aboveZero := orderly filter rebuilt accepted
        rcases rebuild_eq_ok_iff.mp accepted with ⟨_, micros, _, rfl⟩
        exact coherent_ofSettings aboveZero micros filter.cursor
      · exact coherent

theorem coherent_perform (sound : filter.Sound) (coherent : filter.Coherent) {actions : List Action}
    (orderly : ∀ action ∈ actions, action.Orderly) : (filter.perform actions).Coherent := by
  induction actions generalizing filter with
  | nil => exact coherent
  | cons action rest ih =>
      rw [List.forall_mem_cons] at orderly
      exact ih (sound_act sound action) (coherent_act sound coherent orderly.1) orderly.2

theorem coherent_new (built : new settings motors timing = .ok filter)
    (aboveZero : settings.AboveZero motors) : filter.Coherent := by
  rcases new_eq_ok_iff.mp built with ⟨_, micros, _, rfl⟩
  exact coherent_ofSettings aboveZero micros .start

theorem bank?_of_mem (sound : filter.Sound) {bank : Bank} (bankMem : bank ∈ filter.banks) :
    filter.bank? bank.signal = some bank := by
  cases found : filter.bank? bank.signal with
  | none =>
      rw [bank?, List.find?_eq_none] at found
      exact absurd (decide_eq_true rfl) (found bank bankMem)
  | some chosen =>
      rcases mem_of_bank? found with ⟨chosenMem, chosenSignal⟩
      exact congrArg some (List.inj_on_of_nodup_map sound.signals chosenMem bankMem chosenSignal)

/-- After updates, samples and rebuilds for lowest frequencies above zero, every notch that is not
ahead of the cursor among the notches of the cursor's motor is where the speed of its motor puts it,
on all axes. -/
theorem notches_follow_speed {bank : Bank} {index motor harmonic : Nat}
    (built : new settings motors timing = .ok filter) (aboveZero : settings.AboveZero motors)
    {actions : List Action} (orderly : ∀ action ∈ actions, action.Orderly)
    (present : (filter.perform actions).banks[index]? = some bank)
    (motorLt : motor < (filter.perform actions).motorCount) (harmonicLt : harmonic < bank.harmonics)
    (passed : motor ≠ (filter.perform actions).cursor.motor ∨
      index < (filter.perform actions).cursor.bank ∨
      index = (filter.perform actions).cursor.bank ∧
        harmonic < (filter.perform actions).cursor.harmonic) :
    ∀ axis < axisCount, (filter.perform actions).center? bank.signal axis motor harmonic =
      some (Notch.place
        ((UInt32.ofNat (harmonic + 1)).toFloat32 * (filter.perform actions).speed motor)
        bank.lowest bank.parked) := by
  have sound := sound_perform (sound_new built) actions
  have coherent := coherent_perform (sound_new built) (coherent_new built aboveZero) orderly
  generalize filter.perform actions = last at *
  intro axis axisLt
  have within : Cursor.Within { motor, harmonic, bank := index } last.motorCount last.sizes := by
    rcases List.getElem?_eq_some_iff.mp present with ⟨indexLt, rfl⟩
    have sizeLt : index < last.sizes.length := by simpa [sizes] using indexLt
    refine ⟨motorLt, sizeLt, ?_⟩
    rw [List.getD_eq_getElem _ _ sizeLt]
    simpa [sizes] using harmonicLt
  have there := coherent { motor, harmonic, bank := index } within passed
  rw [centerAt, targetAt, present, Option.bind_some, Option.map_some] at there
  simp only [center?, axisLt, if_true, bank?_of_mem sound (List.mem_of_getElem? present)]
  exact there

/-- Telemetry, a sample, a rebuild for a slower loop in the middle of a sweep, settings that are
refused, and more telemetry, until the cursor is at the third harmonic of motor 2 and has the second
one behind it. -/
theorem notches_follow_speed_after_rebuild :
    let actions : List Action := [.update fun _ => some 840, .apply .gyro 1 0.5,
      .rebuild {} {} { samplesPerLoop := 2 }, .rebuild {} { poleCount := 3 } {},
      .update fun _ => some 1200, .update fun motor => if motor = 2 then none else some 600]
    ∃ filter bank, new {} {} {} = .ok filter ∧
      (filter.perform actions).banks[0]? = some bank ∧
      (filter.perform actions).cursor = { motor := 2, harmonic := 2, bank := 0 } ∧
      ∀ axis < axisCount, (filter.perform actions).center? bank.signal axis 2 1 =
        some (Notch.place ((UInt32.ofNat 2).toFloat32 * (filter.perform actions).speed 2)
          bank.lowest bank.parked) := by
  intro actions
  let filter := (ofSettings {} {} {} 125).moveCursor .start
  have built : new {} {} {} = .ok filter := rfl
  have aboveZero (motors : MotorSettings) : FilterSettings.AboveZero {} motors := by
    simp [FilterSettings.AboveZero]
  have orderly : ∀ action ∈ actions, action.Orderly := by
    simp [actions, Action.Orderly, aboveZero]
  have cursor : (filter.perform actions).cursor = { motor := 2, harmonic := 2, bank := 0 } := by
    decide +kernel
  have motorLt : 2 < (filter.perform actions).motorCount := by decide +kernel
  have shape : ((filter.perform actions).banks[0]?).map Bank.harmonics = some 3 := by
    decide +kernel
  rcases Option.map_eq_some_iff.mp shape with ⟨bank, present, harmonics⟩
  have harmonicLt : 1 < bank.harmonics := by omega
  refine ⟨filter, bank, built, present, cursor, ?_⟩
  exact notches_follow_speed built (aboveZero {}) orderly present motorLt harmonicLt
    (by rw [cursor]; decide)

end Runs

end Filter

end Rotor

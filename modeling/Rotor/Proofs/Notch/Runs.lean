import Rotor.Notch.Filter
import Rotor.Proofs.Notch.Order
import Rotor.Proofs.Notch.Tables

/-!
# Runs of the notch filter

A filter is built from settings, and from then on takes in telemetry, passes samples, has its cursor
moved and is rebuilt for other settings, in any order. `Filter.Sound` is what all of this keeps: the
banks are for different signals and sound, and the cursor is where the next retune can take place.
`Filter.sound_perform` is the induction over a run.

Telemetry and samples leave a filter what it was built as (`Filter.SameBuild`).
-/

namespace Rotor.Filter

variable {filter next : Filter}

/-- What is done to a filter. -/
inductive Action
  | update (telemetry : Nat → Option UInt16)
  | apply (signal : Signal) (axis : Nat) (value : Float32)
  | moveCursor (cursor : Cursor)
  | rebuild (settings : FilterSettings) (motors : MotorSettings) (timing : Timing)

/-- The filter after an action. Settings that are refused leave it as it was. -/
def act (filter : Filter) : Action → Filter
  | .update telemetry => filter.update telemetry
  | .apply signal axis value => (filter.apply signal axis value).2
  | .moveCursor cursor => filter.moveCursor cursor
  | .rebuild settings motors timing =>
      match filter.rebuild settings motors timing with
      | .ok rebuilt => rebuilt
      | .error _ => filter

/-- The filter after a list of actions. -/
def perform (filter : Filter) (actions : List Action) : Filter :=
  actions.foldl act filter

/-- A sample that has passed a filter. -/
structure Output where
  signal : Signal
  axis : Nat
  value : Float32

/-- What comes out of an action, none where no sample is passed. -/
def output? (filter : Filter) : Action → Option Output
  | .apply signal axis value => some { signal, axis, value := (filter.apply signal axis value).1 }
  | _ => none

/-- What comes out of a list of actions. -/
def outputs (filter : Filter) : List Action → List Output
  | [] => []
  | action :: rest => (filter.output? action).toList ++ (filter.act action).outputs rest

/-- What a filter is from the time that it is built. -/
structure Sound (filter : Filter) : Prop where
  signals : (filter.banks.map Bank.signal).Nodup
  banks : ∀ bank ∈ filter.banks, bank.Sound filter.motorCount
  motors_le : filter.motorCount ≤ maxMotors
  speeds : filter.speeds.length = maxMotors
  cursor : filter.cursor.clamp filter.motorCount filter.sizes = filter.cursor

/-- A sound filter with a cell to retune. -/
structure Running (filter : Filter) : Prop extends filter.Sound where
  some_bank : filter.banks ≠ []
  some_motor : 0 < filter.motorCount

/-- Two filters that differ at most in their cursor and in what they took in. -/
structure SameBuild (filter next : Filter) : Prop where
  banks : next.banks.map Bank.blank = filter.banks.map Bank.blank
  motorCount : next.motorCount = filter.motorCount
  retunesPerTick : next.retunesPerTick = filter.retunesPerTick

namespace SameBuild

theorem refl (filter : Filter) : filter.SameBuild filter :=
  ⟨rfl, rfl, rfl⟩

theorem trans {last : Filter} (first : filter.SameBuild next) (second : next.SameBuild last) :
    filter.SameBuild last :=
  ⟨second.banks.trans first.banks, second.motorCount.trans first.motorCount,
    second.retunesPerTick.trans first.retunesPerTick⟩

theorem sizes (same : filter.SameBuild next) : next.sizes = filter.sizes := by
  have harmonics := congrArg (List.map Bank.harmonics) same.banks
  rw [List.map_map, List.map_map] at harmonics
  exact harmonics

theorem signals (same : filter.SameBuild next) :
    next.banks.map Bank.signal = filter.banks.map Bank.signal := by
  have signals := congrArg (List.map Bank.signal) same.banks
  rw [List.map_map, List.map_map] at signals
  exact signals

end SameBuild

section Cells

theorem sizes_pos (sound : filter.Sound) : ∀ size ∈ filter.sizes, 0 < size := by
  intro size sizeMem
  rcases List.mem_map.mp sizeMem with ⟨bank, bankMem, rfl⟩
  exact (sound.banks bank bankMem).harmonics_pos

theorem within_cursor (running : filter.Running) :
    filter.cursor.Within filter.motorCount filter.sizes := by
  have someBank : 0 < filter.sizes.length := by
    simpa [sizes] using List.length_pos_iff.mpr running.some_bank
  rw [← running.cursor]
  exact Cursor.within_clamp (sizes_pos running.toSound) running.some_motor someBank _

end Cells

section Retune

/-- The filter that has taken in the telemetry of a turn and has not retuned yet. -/
def smoothed (filter : Filter) (telemetry : Nat → Option UInt16) : Filter :=
  { filter with smoother := filter.smoother.updateAll filter.motorCount telemetry }

theorem update_of_idle (idle : filter.banks = [] ∨ filter.motorCount = 0)
    (telemetry : Nat → Option UInt16) : filter.update telemetry = filter := by
  simp [update, idle]

theorem update_of_running (running : filter.Running) (telemetry : Nat → Option UInt16) :
    filter.update telemetry =
      Nat.repeat retuneNext filter.retunesPerTick (filter.smoothed telemetry) := by
  have busy : ¬(filter.banks = [] ∨ filter.motorCount = 0) := by
    have someMotor := running.some_motor
    rintro (none | none)
    · exact running.some_bank none
    · omega
  simp [update, busy, smoothed]

theorem idle_or_running (sound : filter.Sound) :
    (filter.banks = [] ∨ filter.motorCount = 0) ∨ filter.Running := by
  by_cases idle : filter.banks = [] ∨ filter.motorCount = 0
  · exact .inl idle
  · rw [not_or] at idle
    exact .inr ⟨sound, idle.1, Nat.pos_of_ne_zero idle.2⟩

theorem sameBuild_retuneNext (filter : Filter) : filter.SameBuild filter.retuneNext :=
  ⟨map_modify_of_kept (fun _ => Bank.blank_retune ..) _ _, rfl, rfl⟩

theorem sameBuild_smoothed (filter : Filter) (telemetry : Nat → Option UInt16) :
    filter.SameBuild (filter.smoothed telemetry) :=
  ⟨rfl, rfl, rfl⟩

theorem sizes_retuneCell (filter : Filter) : filter.retuneCell.sizes = filter.sizes := by
  apply map_modify_of_kept
  intro bank
  rfl

theorem cursor_retuneNext (filter : Filter) :
    filter.retuneNext.cursor = filter.cursor.next filter.motorCount filter.sizes :=
  congrArg (filter.cursor.next filter.motorCount) filter.sizes_retuneCell

theorem running_retuneNext (running : filter.Running) : filter.retuneNext.Running := by
  have same := sameBuild_retuneNext filter
  refine ⟨⟨?_, ?_, running.motors_le, ?_, ?_⟩, ?_, running.some_motor⟩
  · rw [same.signals]
    exact running.signals
  · apply forall_mem_modify running.banks
    intro bank bankSound
    exact Bank.sound_retune bankSound ..
  · have lengths : filter.retuneNext.speeds.length = filter.speeds.length := by
      simp only [retuneNext, advance]
      split
      · exact List.length_set
      · rfl
    exact lengths.trans running.speeds
  · rw [same.motorCount, same.sizes, cursor_retuneNext]
    exact Cursor.clamp_of_within
      (Cursor.within_next (sizes_pos running.toSound) (within_cursor running))
  · have banks := running.some_bank
    simpa [retuneNext, retuneCell, advance] using banks

theorem running_smoothed (running : filter.Running) (telemetry : Nat → Option UInt16) :
    (filter.smoothed telemetry).Running :=
  ⟨⟨running.signals, running.banks, running.motors_le, running.speeds, running.cursor⟩,
    running.some_bank, running.some_motor⟩

/-- What every retune keeps holds after any number of them. -/
theorem repeat_induction {holds : Filter → Prop} (start : holds filter)
    (kept : ∀ before, holds before → holds before.retuneNext) (count : Nat) :
    holds (Nat.repeat retuneNext count filter) := by
  induction count with
  | zero => exact start
  | succ count ih => exact kept _ ih

theorem running_repeat (running : filter.Running) (count : Nat) :
    (Nat.repeat retuneNext count filter).Running :=
  repeat_induction running (fun _ => running_retuneNext) count

theorem sameBuild_repeat (filter : Filter) (count : Nat) :
    filter.SameBuild (Nat.repeat retuneNext count filter) := by
  apply repeat_induction (SameBuild.refl filter)
  intro before same
  exact same.trans (sameBuild_retuneNext before)

theorem running_update (running : filter.Running) (telemetry : Nat → Option UInt16) :
    (filter.update telemetry).Running := by
  rw [update_of_running running]
  exact running_repeat (running_smoothed running telemetry) _

theorem sound_update (sound : filter.Sound) (telemetry : Nat → Option UInt16) :
    (filter.update telemetry).Sound := by
  rcases idle_or_running sound with idle | running
  · rwa [update_of_idle idle]
  · exact (running_update running telemetry).toSound

theorem sameBuild_update (sound : filter.Sound) (telemetry : Nat → Option UInt16) :
    filter.SameBuild (filter.update telemetry) := by
  rcases idle_or_running sound with idle | running
  · rw [update_of_idle idle]
    exact SameBuild.refl filter
  · rw [update_of_running running]
    exact (sameBuild_smoothed filter telemetry).trans (sameBuild_repeat _ _)

end Retune

section Apply

variable {signal : Signal} {bank : Bank}

theorem mem_of_bank? (found : filter.bank? signal = some bank) :
    bank ∈ filter.banks ∧ bank.signal = signal := by
  refine ⟨List.mem_of_find?_eq_some found, ?_⟩
  simpa using List.find?_some found

/-- A sample passes the bank of its signal, and the other banks stay as they are. -/
theorem banks_apply (sound : filter.Sound) (signal : Signal) (axis : Nat) (value : Float32) :
    (filter.apply signal axis value).2.banks = filter.banks.map fun bank =>
      if bank.signal = signal then (bank.apply axis value).2 else bank := by
  cases found : filter.bank? signal with
  | none =>
      have others : ∀ bank ∈ filter.banks, bank.signal ≠ signal := by
        simpa [bank?] using found
      have same : filter.banks.map (fun bank =>
          if bank.signal = signal then (bank.apply axis value).2 else bank) = filter.banks := by
        conv_rhs => rw [← List.map_id filter.banks]
        apply List.map_congr_left
        intro bank bankMem
        simp [others bank bankMem]
      simp only [apply, found, same]
  | some chosen =>
      rcases mem_of_bank? found with ⟨chosenMem, chosenSignal⟩
      simp only [apply, found]
      apply List.map_congr_left
      intro bank bankMem
      split
      · next signals =>
        -- The signals tell the banks apart, so this is the bank that was found.
        have equal : bank = chosen :=
          List.inj_on_of_nodup_map sound.signals bankMem chosenMem (signals.trans chosenSignal.symm)
        rw [equal]
      · rfl

theorem sameBuild_apply (sound : filter.Sound) (signal : Signal) (axis : Nat) (value : Float32) :
    filter.SameBuild (filter.apply signal axis value).2 := by
  refine ⟨?_, ?_, ?_⟩
  · rw [banks_apply sound, List.map_map]
    apply List.map_congr_left
    intro bank _
    simp only [Function.comp_apply]
    split
    · exact Bank.blank_apply ..
    · rfl
  all_goals
    simp only [apply]
    split <;> rfl

theorem cursor_apply (filter : Filter) (signal : Signal) (axis : Nat) (value : Float32) :
    (filter.apply signal axis value).2.cursor = filter.cursor := by
  simp only [apply]
  split <;> rfl

theorem speeds_apply (filter : Filter) (signal : Signal) (axis : Nat) (value : Float32) :
    (filter.apply signal axis value).2.speeds = filter.speeds := by
  simp only [apply]
  split <;> rfl

theorem sound_apply (sound : filter.Sound) (signal : Signal) (axis : Nat) (value : Float32) :
    (filter.apply signal axis value).2.Sound := by
  have same := sameBuild_apply sound signal axis value
  refine ⟨?_, ?_, ?_, ?_, ?_⟩
  · rw [same.signals]
    exact sound.signals
  · intro bank bankMem
    rw [banks_apply sound, List.mem_map] at bankMem
    rcases bankMem with ⟨before, beforeMem, rfl⟩
    rw [same.motorCount]
    split
    · exact Bank.sound_apply (sound.banks before beforeMem) axis value
    · exact sound.banks before beforeMem
  · rw [same.motorCount]
    exact sound.motors_le
  · rw [speeds_apply]
    exact sound.speeds
  · rw [same.motorCount, same.sizes, cursor_apply]
    exact sound.cursor

end Apply

section Build

variable {settings : FilterSettings} {motors : MotorSettings} {timing : Timing} {micros : UInt32}

theorem sound_moveCursor (sound : filter.Sound) (cursor : Cursor) :
    (filter.moveCursor cursor).Sound :=
  ⟨sound.signals, sound.banks, sound.motors_le, sound.speeds, Cursor.clamp_clamp ..⟩

theorem validate_of_checkSettings (checked : checkSettings settings motors timing = .ok ()) :
    settings.validate = .ok () ∧ motors.validate = .ok () ∧ timing.validate = .ok () := by
  simp only [checkSettings, bind, Except.bind] at checked
  cases first : settings.validate with
  | error cause => simp [first] at checked
  | ok _ =>
      cases second : motors.validate with
      | error cause => simp [first, second] at checked
      | ok _ => exact ⟨rfl, rfl, by simpa [first, second] using checked⟩

theorem motorCount_le (accepted : motors.validate = .ok ()) :
    motors.motorCount.toNat ≤ maxMotors := by
  simp only [MotorSettings.validate] at accepted
  split at accepted
  · simp at accepted
  · next few => exact Nat.le_of_not_lt few

theorem mem_bankFor {signal : Signal} {bankSettings : BankSettings} {motorCount : Nat} {bank : Bank}
    (built : bank ∈ bankFor signal bankSettings micros motorCount) :
    bank.signal = signal ∧ bank.Sound motorCount := by
  simp only [bankFor, Option.mem_def] at built
  split at built
  · next enabled =>
    cases built
    have positive : 0 < bankSettings.harmonics.toNat := by
      simpa [BankSettings.isEnabled, UInt8.lt_iff_toNat_lt] using enabled
    exact ⟨rfl, Bank.sound_new _ positive ..⟩
  · simp at built

theorem mem_banksFor {bank : Bank} (built : bank ∈ banksFor settings motors timing micros) :
    bank.Sound motors.motorCount.toNat := by
  simp only [banksFor] at built
  split at built
  · rcases List.mem_append.mp built with gyro | dterm
    · exact (mem_bankFor (Option.mem_toList.mp gyro)).2
    · exact (mem_bankFor (Option.mem_toList.mp dterm)).2
  · simp at built

/-- How a bank of a filter for accepted settings was built. -/
theorem exists_settings_of_mem_banksFor {bank : Bank}
    (built : bank ∈ banksFor settings motors timing micros) :
    ∃ signal chosen time, motors.telemetry = true ∧ chosen.isEnabled = true ∧
      (chosen = settings.gyro ∧ time = timing.gyroMicros ∨
        chosen = settings.dterm ∧ time = micros) ∧
      bank = .new signal chosen.harmonics.toNat chosen.minHertz.toFloat32 chosen.qualityRatio
        time.toFloat32 motors.motorCount.toNat := by
  simp only [banksFor, bankFor] at built
  split at built
  · next telemetry =>
    rcases List.mem_append.mp built with gyro | dterm
    · split at gyro
      · next enabled =>
        exact ⟨_, _, _, telemetry, enabled, .inl ⟨rfl, rfl⟩, List.mem_singleton.mp gyro⟩
      · simp at gyro
    · split at dterm
      · next enabled =>
        exact ⟨_, _, _, telemetry, enabled, .inr ⟨rfl, rfl⟩, List.mem_singleton.mp dterm⟩
      · simp at dterm
  · simp at built

theorem signals_banksFor (settings : FilterSettings) (motors : MotorSettings) (timing : Timing)
    (micros : UInt32) : ((banksFor settings motors timing micros).map Bank.signal).Nodup := by
  simp only [banksFor, bankFor]
  split
  · split <;> split <;> simp [Bank.new]
  · simp

/-- A filter for accepted settings, wherever its cursor is put. -/
theorem sound_ofSettings (checked : checkSettings settings motors timing = .ok ())
    (micros : UInt32) (cursor : Cursor) :
    ((ofSettings settings motors timing micros).moveCursor cursor).Sound where
  signals := signals_banksFor settings motors timing micros
  banks := fun _ => mem_banksFor
  motors_le := motorCount_le (validate_of_checkSettings checked).2.1
  speeds := by simp [ofSettings, moveCursor]
  cursor := Cursor.clamp_clamp ..

theorem new_eq_ok_iff : new settings motors timing = .ok filter ↔
    checkSettings settings motors timing = .ok () ∧ ∃ micros, timing.loopMicros = .ok micros ∧
      filter = (ofSettings settings motors timing micros).moveCursor .start := by
  simp only [new, bind, Except.bind]
  cases timing.loopMicros with
  | error fault => simp [Except.mapError]
  | ok micros =>
      cases checkSettings settings motors timing with
      | error cause => simp [Except.mapError]
      | ok _ => simp [Except.mapError, pure, Except.pure, eq_comm]

theorem rebuild_eq_ok_iff : filter.rebuild settings motors timing = .ok next ↔
    checkSettings settings motors timing = .ok () ∧ ∃ micros, timing.loopMicros = .ok micros ∧
      next = (ofSettings settings motors timing micros).moveCursor filter.cursor := by
  simp only [rebuild, bind, Except.bind]
  cases checkSettings settings motors timing with
  | error cause => simp [Except.mapError]
  | ok _ =>
      cases timing.loopMicros with
      | error fault => simp [Except.mapError]
      | ok micros => simp [Except.mapError, pure, Except.pure, eq_comm]

theorem sound_new (built : new settings motors timing = .ok filter) : filter.Sound := by
  rcases new_eq_ok_iff.mp built with ⟨checked, micros, _, rfl⟩
  exact sound_ofSettings checked micros .start

theorem sound_rebuild (rebuilt : filter.rebuild settings motors timing = .ok next) :
    next.Sound := by
  rcases rebuild_eq_ok_iff.mp rebuilt with ⟨checked, micros, _, rfl⟩
  exact sound_ofSettings checked micros filter.cursor

end Build

section Runs

theorem sound_act (sound : filter.Sound) (action : Action) : (filter.act action).Sound := by
  cases action with
  | update telemetry => exact sound_update sound telemetry
  | apply signal axis value => exact sound_apply sound signal axis value
  | moveCursor cursor => exact sound_moveCursor sound cursor
  | rebuild settings motors timing =>
      simp only [act]
      split
      · next rebuilt => exact sound_rebuild rebuilt
      · exact sound

theorem sound_perform (sound : filter.Sound) (actions : List Action) :
    (filter.perform actions).Sound := by
  induction actions generalizing filter with
  | nil => exact sound
  | cons action rest ih => exact ih (sound_act sound action)

end Runs

end Rotor.Filter

import Rotor.Proofs.Notch.Lines
import Rotor.Proofs.Notch.Ranges
import Rotor.Proofs.Notch.Sweep
import Rotor.Proofs.Settings.Acceptance

/-!
# The places in a filter

The cursor of a filter is at a place of its tables, whatever is done to the filter: a motor, a bank
and a harmonic of this bank that are there, or zero where there is none (`Cursor.Placed`). The
tables keep their sizes, and so a retune only looks at places that are there and the fields of the
cursor stay bytes while it counts them up (`Filter.InReach`).
-/

namespace Rotor

namespace Cursor

variable {cursor : Cursor} {motorCount : Nat} {sizes : List Nat}

/-- One of `size` places, or zero where there is none. -/
def IsPlace (place size : Nat) : Prop :=
  place < size ∨ size = 0 ∧ place = 0

/-- The cursor is at a place of a table with the given number of motors and sizes of the banks. -/
structure Placed (cursor : Cursor) (motorCount : Nat) (sizes : List Nat) : Prop where
  motor : IsPlace cursor.motor motorCount
  bank : IsPlace cursor.bank sizes.length
  harmonic : IsPlace cursor.harmonic (sizes.getD cursor.bank 0)

theorem isPlace_iff {place size : Nat} :
    IsPlace place size ↔ (if place < size then place else 0) = place := by
  unfold IsPlace
  split <;> omega

/-- Moving a cursor into a table leaves the cursors that are at a place of it and no others. -/
theorem clamp_eq_self_iff : cursor.clamp motorCount sizes = cursor ↔
    cursor.Placed motorCount sizes := by
  rcases cursor with ⟨motor, harmonic, bank⟩
  simp only [clamp, mk.injEq]
  constructor
  · rintro ⟨motorKept, harmonicKept, bankKept⟩
    rw [bankKept] at harmonicKept
    exact ⟨isPlace_iff.mpr motorKept, isPlace_iff.mpr bankKept, isPlace_iff.mpr harmonicKept⟩
  · rintro ⟨motorPlace, bankPlace, harmonicPlace⟩
    rw [isPlace_iff.mp bankPlace]
    exact ⟨isPlace_iff.mp motorPlace, isPlace_iff.mp harmonicPlace, rfl⟩

end Cursor

theorem BankSettings.harmonics_le {settings : BankSettings}
    (accepted : settings.validate = .ok ()) : settings.harmonics.toNat ≤ maxHarmonics := by
  by_contra many
  simp [validate, Nat.lt_of_not_le many] at accepted

namespace Bank

variable {bank : Bank} {motorCount : Nat}

theorem isSome_center?_iff (sound : bank.Sound motorCount) {motor harmonic : Nat} :
    (bank.center? motor harmonic).isSome = true ↔
      motor < motorCount ∧ harmonic < bank.harmonics := by
  constructor
  · exact lt_of_center? sound
  · rintro ⟨motorLt, harmonicLt⟩
    rcases exists_center sound motorLt harmonicLt with ⟨center, stored⟩
    rw [stored]
    rfl

theorem isSome_notch?_iff (sound : bank.Sound motorCount) {axis motor harmonic : Nat} :
    (bank.notch? axis motor harmonic).isSome = true ↔
      axis < axisCount ∧ motor < motorCount ∧ harmonic < bank.harmonics := by
  by_cases axisLt : axis < axisCount
  · rw [isSome_notch? sound axisLt, isSome_center?_iff sound]
    simp [axisLt]
  · have absent : bank.notches[axis]? = none := by
      rw [List.getElem?_eq_none_iff, length_notches sound]
      exact Nat.le_of_not_lt axisLt
    simp [notch?, absent, axisLt]

end Bank

namespace Filter

variable {filter : Filter} {settings : FilterSettings} {motors : MotorSettings} {timing : Timing}

/-- The tables of a filter have the sizes that they are made for, and a bank has a notch for every
axis, motor and harmonic and no other. -/
structure Shaped (filter : Filter) : Prop where
  banks : filter.banks.length ≤ 2
  motors : filter.motorCount ≤ maxMotors
  speeds : filter.speeds.length = maxMotors
  harmonics : ∀ bank ∈ filter.banks, bank.harmonics ≤ maxHarmonics
  centers : ∀ bank ∈ filter.banks, ∀ motor harmonic,
    (bank.center? motor harmonic).isSome = true ↔
      motor < filter.motorCount ∧ harmonic < bank.harmonics
  notches : ∀ bank ∈ filter.banks, ∀ axis motor harmonic,
    (bank.notch? axis motor harmonic).isSome = true ↔
      axis < axisCount ∧ motor < filter.motorCount ∧ harmonic < bank.harmonics

/-- All that the next retune looks at is there, within the room of the tables, and no field of the
cursor leaves its byte when it is counted up. -/
structure InReach (filter : Filter) : Prop where
  bank : ∃ bank, filter.banks[filter.cursor.bank]? = some bank ∧
    (bank.center? filter.cursor.motor filter.cursor.harmonic).isSome = true ∧
    ∀ axis < axisCount,
      (bank.notch? axis filter.cursor.motor filter.cursor.harmonic).isSome = true
  room : filter.cursor.motor < maxMotors ∧ filter.cursor.harmonic < maxHarmonics
  speed : filter.cursor.motor < filter.speeds.length
  next : (filter.cursor.next filter.motorCount filter.sizes).motor < filter.speeds.length
  bytes : filter.cursor.motor + 1 < UInt8.size ∧ filter.cursor.harmonic + 1 < UInt8.size ∧
    filter.cursor.bank + 1 < UInt8.size

section Sizes

theorem sizes_le_ofSettings (checked : checkSettings settings motors timing = .ok ())
    (micros : UInt32) (cursor : Cursor) :
    ∀ size ∈ ((ofSettings settings motors timing micros).moveCursor cursor).sizes,
      size ≤ maxHarmonics := by
  intro size sizeMem
  rcases List.mem_map.mp sizeMem with ⟨bank, bankMem, rfl⟩
  rcases exists_settings_of_mem_banksFor bankMem with ⟨_, chosen, _, _, _, origin, rfl⟩
  rcases FilterSettings.validate_banks (validate_of_checkSettings checked).1 with ⟨gyro, dterm⟩
  apply BankSettings.harmonics_le
  rcases origin with ⟨rfl, _⟩ | ⟨rfl, _⟩
  · exact gyro
  · exact dterm

/-- No action gives a filter a bank that follows more harmonics than the tables have room for. -/
theorem sizes_le_act (sound : filter.Sound) (few : ∀ size ∈ filter.sizes, size ≤ maxHarmonics)
    (action : Action) : ∀ size ∈ (filter.act action).sizes, size ≤ maxHarmonics := by
  cases action with
  | update telemetry =>
      rw [act, (sameBuild_update sound telemetry).sizes]
      exact few
  | apply signal axis value =>
      rw [act, (sameBuild_apply sound signal axis value).sizes]
      exact few
  | moveCursor cursor => exact few
  | rebuild settings motors timing =>
      simp only [act]
      split
      · next rebuilt accepted =>
        rcases rebuild_eq_ok_iff.mp accepted with ⟨checked, micros, _, rfl⟩
        exact sizes_le_ofSettings checked micros filter.cursor
      · exact few

theorem sizes_le_perform (sound : filter.Sound)
    (few : ∀ size ∈ filter.sizes, size ≤ maxHarmonics) (actions : List Action) :
    ∀ size ∈ (filter.perform actions).sizes, size ≤ maxHarmonics := by
  induction actions generalizing filter with
  | nil => exact few
  | cons action rest ih => exact ih (sound_act sound action) (sizes_le_act sound few action)

theorem sizes_le_new (built : new settings motors timing = .ok filter) :
    ∀ size ∈ filter.sizes, size ≤ maxHarmonics := by
  rcases new_eq_ok_iff.mp built with ⟨checked, micros, _, rfl⟩
  exact sizes_le_ofSettings checked micros .start

/-- There is a bank for each signal at most. -/
theorem length_banks_le (sound : filter.Sound) : filter.banks.length ≤ 2 := by
  have among : ∀ signal ∈ filter.banks.map Bank.signal, signal ∈ [Signal.gyro, Signal.dterm] := by
    intro signal _
    cases signal <;> simp
  simpa using (List.subperm_of_subset sound.signals among).length_le

theorem shaped_of_sound (sound : filter.Sound)
    (few : ∀ size ∈ filter.sizes, size ≤ maxHarmonics) : filter.Shaped where
  banks := length_banks_le sound
  motors := sound.motors_le
  speeds := sound.speeds
  harmonics := fun _ bankMem => few _ (List.mem_map_of_mem bankMem)
  centers := fun bank bankMem _ _ => Bank.isSome_center?_iff (sound.banks bank bankMem)
  notches := fun bank bankMem _ _ _ => Bank.isSome_notch?_iff (sound.banks bank bankMem)

end Sizes

section Reach

theorem inReach_of_running (running : filter.Running)
    (few : ∀ size ∈ filter.sizes, size ≤ maxHarmonics) : filter.InReach := by
  have shaped := shaped_of_sound running.toSound few
  have motorLt := (within_cursor running).motor_lt
  have nextLt :=
    (Cursor.within_next (sizes_pos running.toSound) (within_cursor running)).motor_lt
  have motors := running.motors_le
  have banks := shaped.banks
  have inTable : filter.cursor.motor < maxMotors := Nat.lt_of_lt_of_le motorLt motors
  rcases exists_cursor_bank running with ⟨bank, found, bankSound, harmonicLt⟩
  have harmonics := shaped.harmonics bank (List.mem_of_getElem? found)
  have bankLt := (List.getElem?_eq_some_iff.mp found).1
  have inBank : filter.cursor.harmonic < maxHarmonics := Nat.lt_of_lt_of_le harmonicLt harmonics
  simp only [maxMotors, maxHarmonics] at inTable inBank motors
  refine ⟨⟨bank, found, ?_, ?_⟩, ⟨inTable, inBank⟩, ?_, ?_, ?_⟩
  · exact (Bank.isSome_center?_iff bankSound).mpr ⟨motorLt, harmonicLt⟩
  · intro axis axisLt
    exact (Bank.isSome_notch?_iff bankSound).mpr ⟨axisLt, motorLt, harmonicLt⟩
  · rw [running.speeds]
    exact inTable
  · rw [running.speeds]
    exact Nat.lt_of_lt_of_le nextLt running.motors_le
  · simp only [UInt8.size]
    omega

/-- Every single retune of an update is in reach, also where the updates before it have left the
cursor at the end of the tables. -/
theorem inReach_of_mem_retunesOf (sound : filter.Sound)
    (few : ∀ size ∈ filter.sizes, size ≤ maxHarmonics) {telemetry : Nat → Option UInt16}
    {before : Filter} (retuned : before ∈ filter.retunesOf telemetry) : before.InReach := by
  rcases idle_or_running sound with idle | running
  · simp [retunesOf, idle] at retuned
  · have alone : before ∈ filter.retunesIn [telemetry] := by simpa [retunesIn] using retuned
    rcases running_of_mem_retunesIn running alone with ⟨beforeRunning, same⟩
    apply inReach_of_running beforeRunning
    rw [same.sizes]
    exact few

end Reach

/-- Whatever is done to a filter, its cursor is at a place of its tables, so that moving the cursor
to where it is changes nothing, and moving it twice is moving it once. The tables keep their shape,
every retune that an update makes is in reach, and a rebuild whose time fits ends in no fault. -/
theorem cursor_in_tables (built : new settings motors timing = .ok filter)
    (actions : List Action) :
    let last := filter.perform actions
    last.cursor.Placed last.motorCount last.sizes ∧
    last.moveCursor last.cursor = last ∧
    (∀ cursor, (last.moveCursor cursor).moveCursor cursor = last.moveCursor cursor) ∧
    last.Shaped ∧
    (∀ telemetry,
      Retuning (last.informed telemetry) (last.retunesOf telemetry) (last.update telemetry) ∧
        ∀ before ∈ last.retunesOf telemetry, before.InReach) ∧
    ∀ settings motors timing, timing.Fits → ∀ fault,
      last.rebuild settings motors timing ≠ .error (.fault fault) := by
  intro last
  have sound : last.Sound := sound_perform (sound_new built) actions
  have few := sizes_le_perform (sound_new built) (sizes_le_new built) actions
  refine ⟨Cursor.clamp_eq_self_iff.mp sound.cursor, ?_, ?_, shaped_of_sound sound few, ?_, ?_⟩
  · exact congrArg (fun cursor => { last with cursor }) sound.cursor
  · intro cursor
    rfl
  · intro telemetry
    refine ⟨retuning_update last telemetry, ?_⟩
    intro before retuned
    exact inReach_of_mem_retunesOf sound few retuned
  · intro settings motors timing fits fault
    rcases rebuild_cases last settings motors timing with
      ⟨cause, _, failed⟩ | ⟨_, overflow, _⟩ | ⟨next, _, _, rebuilt⟩
    · simp [failed]
    · exact absurd fits overflow
    · simp [rebuilt]

/-- The cursor is put at the third harmonic of the last motor in a D-term bank that a rebuild leaves
with one harmonic: its harmonic starts again and the rest stays, at the last cell of the table. -/
theorem cursor_in_tables_of_smaller_bank :
    let wide : BankSettings := { harmonics := 3, minHertz := 100, quality := 500 }
    let actions : List Action := [.rebuild { dterm := wide } {} {},
      .moveCursor { motor := 3, harmonic := 2, bank := 1 }, .rebuild {} {} {}]
    ∃ filter, new {} {} {} = .ok filter ∧
      (filter.perform actions).cursor = { motor := 3, harmonic := 0, bank := 1 } ∧
      (filter.perform actions).cursor.Placed (filter.perform actions).motorCount
        (filter.perform actions).sizes ∧
      ((filter.perform actions).retunesOf fun _ => some 840).length = 2 ∧
      Retuning ((filter.perform actions).informed fun _ => some 840)
        ((filter.perform actions).retunesOf fun _ => some 840)
        ((filter.perform actions).update fun _ => some 840) ∧
      ∀ before ∈ (filter.perform actions).retunesOf fun _ => some 840, before.InReach := by
  intro wide actions
  let filter := (ofSettings {} {} {} 125).moveCursor .start
  have built : new {} {} {} = .ok filter := rfl
  rcases cursor_in_tables built actions with ⟨placed, _, _, _, inReach, _⟩
  refine ⟨filter, built, by decide +kernel, placed, by decide +kernel, ?_⟩
  exact inReach fun _ => some 840

end Filter

end Rotor

import Rotor.Proofs.Notch.Runs

/-!
# What a retune changes

A retune tunes the notches of one cell to where the speed of their motor puts them, and the last
retune of a motor looks up the speed of the next one. Nothing else changes (`Filter.retunesOneCell`).
Together with the tables of a sound bank this settles that the coefficients in use are always those
of the frequency that is reported for a notch, on all axes.
-/

namespace Rotor

theorem Bank.center?_retune (bank : Bank) (motor harmonic : Nat) (frequency : Float32)
    (otherMotor otherHarmonic : Nat) :
    (bank.retune motor harmonic frequency).center? otherMotor otherHarmonic =
      if otherMotor = motor ∧ otherHarmonic = harmonic then
        (bank.center? motor harmonic).map fun _ => frequency
      else
        bank.center? otherMotor otherHarmonic := by
  simp only [center?, retune, List.getElem?_modify, Option.bind_eq_bind]
  by_cases sameMotor : motor = otherMotor
  · subst sameMotor
    cases bank.centers[motor]? with
    | none => simp
    | some row =>
        by_cases sameHarmonic : harmonic = otherHarmonic
        · subst sameHarmonic
          by_cases inRow : harmonic < row.length <;> simp [inRow]
        · simp [sameHarmonic, Ne.symm sameHarmonic]
  · simp [sameMotor, Ne.symm sameMotor]

namespace Filter

variable {filter : Filter}

/-- The frequency that a cell is tuned to. -/
def centerAt (filter : Filter) (cell : Cursor) : Option Float32 :=
  (filter.banks[cell.bank]?).bind fun bank => bank.center? cell.motor cell.harmonic

/-- The frequency at which a cell of a bank belongs, by the speed that the notches of its motor
follow. -/
def targetIn (filter : Filter) (cell : Cursor) (bank : Bank) : Float32 :=
  Notch.place ((UInt32.ofNat (cell.harmonic + 1)).toFloat32 * filter.speed cell.motor)
    bank.lowest bank.parked

/-- The frequency at which a cell belongs. -/
def targetAt (filter : Filter) (cell : Cursor) : Option Float32 :=
  (filter.banks[cell.bank]?).map (filter.targetIn cell)

/-- Whether the next retune looks up the speed of a motor. -/
def refreshes (filter : Filter) (motor : Nat) : Prop :=
  filter.cursor.endsMotor filter.sizes = true ∧
    (filter.cursor.next filter.motorCount filter.sizes).motor = motor

instance (filter : Filter) (motor : Nat) : Decidable (filter.refreshes motor) :=
  inferInstanceAs (Decidable (_ ∧ _))

/-- The next retune tunes the cell of the cursor to where it belongs and no other cell, and changes
no speed but that of the motor which it looks up. -/
structure RetunesOneCell (filter : Filter) : Prop where
  centers : ∀ cell, filter.retuneNext.centerAt cell =
    if cell = filter.cursor then filter.targetAt cell else filter.centerAt cell
  speeds : ∀ motor, filter.retuneNext.speed motor =
    if filter.refreshes motor then filter.smoother.hertz motor else filter.speed motor

theorem exists_cursor_bank (running : filter.Running) :
    ∃ bank, filter.banks[filter.cursor.bank]? = some bank ∧ bank.Sound filter.motorCount ∧
      filter.cursor.harmonic < bank.harmonics := by
  have within := within_cursor running
  have bankLt : filter.cursor.bank < filter.banks.length := by
    simpa [sizes] using within.bank_lt
  refine ⟨filter.banks[filter.cursor.bank], List.getElem?_eq_getElem bankLt,
    running.banks _ (List.getElem_mem bankLt), ?_⟩
  have harmonicLt := within.harmonic_lt
  rw [List.getD_eq_getElem _ _ within.bank_lt] at harmonicLt
  simpa [sizes] using harmonicLt

theorem getElem?_banks_retuneNext (filter : Filter) (index : Nat) :
    filter.retuneNext.banks[index]? = (filter.banks[index]?).map fun bank =>
      if filter.cursor.bank = index then
        bank.retune filter.cursor.motor filter.cursor.harmonic (filter.targetIn filter.cursor bank)
      else bank := by
  simp only [retuneNext, advance, retuneCell, List.getElem?_modify, targetIn, Option.map_eq_map]

theorem centerAt_retuneNext (running : filter.Running) (cell : Cursor) :
    filter.retuneNext.centerAt cell =
      if cell = filter.cursor then filter.targetAt cell else filter.centerAt cell := by
  rcases exists_cursor_bank running with ⟨bank, found, bankSound, harmonicLt⟩
  have motorLt : filter.cursor.motor < filter.motorCount := (within_cursor running).motor_lt
  rcases Bank.exists_center bankSound motorLt harmonicLt with ⟨center, stored⟩
  rw [centerAt, getElem?_banks_retuneNext]
  by_cases sameCell : cell = filter.cursor
  · subst sameCell
    simp [targetAt, found, Bank.center?_retune, stored]
  · rw [if_neg sameCell, centerAt]
    by_cases sameBank : filter.cursor.bank = cell.bank
    · have otherPlace : ¬(cell.motor = filter.cursor.motor ∧
          cell.harmonic = filter.cursor.harmonic) := by
        rintro ⟨motors, harmonics⟩
        apply sameCell
        rcases cell with ⟨motor, harmonic, bank⟩
        rcases cursor : filter.cursor with ⟨cursorMotor, cursorHarmonic, cursorBank⟩
        simp_all
      cases filter.banks[cell.bank]? with
      | none => rfl
      | some bank => simp [sameBank, Bank.center?_retune, otherPlace]
    · cases filter.banks[cell.bank]? with
      | none => rfl
      | some bank => simp [sameBank]

theorem speed_retuneNext (running : filter.Running) (motor : Nat) :
    filter.retuneNext.speed motor =
      if filter.refreshes motor then filter.smoother.hertz motor else filter.speed motor := by
  have nextLt : (filter.cursor.next filter.motorCount filter.sizes).motor < filter.speeds.length := by
    have within := Cursor.within_next (sizes_pos running.toSound) (within_cursor running)
    rw [running.speeds]
    exact Nat.lt_of_lt_of_le within.motor_lt running.motors_le
  have speeds : filter.retuneNext.speeds =
      if filter.cursor.endsMotor filter.sizes then
        filter.speeds.set (filter.cursor.next filter.motorCount filter.sizes).motor
          (filter.smoother.hertz (filter.cursor.next filter.motorCount filter.sizes).motor)
      else filter.speeds := by
    simp only [retuneNext, advance, sizes_retuneCell]
    rfl
  simp only [speed, speeds, refreshes, List.getD_eq_getElem?_getD]
  split
  · next ends =>
    by_cases sameMotor : (filter.cursor.next filter.motorCount filter.sizes).motor = motor
    · subst sameMotor
      simp [ends, nextLt]
    · simp [sameMotor]
  · next goesOn => simp [goesOn]

theorem retunesOneCell (running : filter.Running) : filter.RetunesOneCell :=
  ⟨centerAt_retuneNext running, speed_retuneNext running⟩

section Coefficients

variable {settings : FilterSettings} {motors : MotorSettings} {timing : Timing}
  {signal : Signal} {bank : Bank}

theorem exists_center_of_sound (sound : filter.Sound) (present : filter.bank? signal = some bank)
    {motor harmonic : Nat} (motorLt : motor < filter.motorCount)
    (harmonicLt : harmonic < bank.harmonics) :
    ∃ center, ∀ axis < axisCount,
      filter.center? signal axis motor harmonic = some center ∧
      filter.coefficients? signal axis motor harmonic =
        some (.notch center bank.micros bank.quality) := by
  have bankSound := sound.banks bank (mem_of_bank? present).1
  rcases Bank.exists_center bankSound motorLt harmonicLt with ⟨center, stored⟩
  refine ⟨center, ?_⟩
  intro axis axisLt
  constructor
  · simp [center?, axisLt, present, stored]
  · have tuned := Bank.coefficients_of_sound bankSound axisLt motor harmonic
    simpa [coefficients?, present, stored] using tuned

/-- Whatever was done to a filter, every notch of a bank that is on has the coefficients that a
fresh filter is given for the frequency reported for it, and these are the same on all axes. -/
theorem coefficients_of_center (built : new settings motors timing = .ok filter)
    (actions : List Action) (present : (filter.perform actions).bank? signal = some bank)
    {motor harmonic : Nat} (motorLt : motor < (filter.perform actions).motorCount)
    (harmonicLt : harmonic < bank.harmonics) :
    ∃ center, ∀ axis < axisCount,
      (filter.perform actions).center? signal axis motor harmonic = some center ∧
      (filter.perform actions).coefficients? signal axis motor harmonic =
        some (Biquad.passThrough.retune center bank.micros bank.quality).coefficients := by
  have sound := sound_perform (sound_new built) actions
  exact exists_center_of_sound sound present motorLt harmonicLt

/-- The third harmonic of motor 2 after telemetry, samples, a rebuild for a slower loop, a move of
the cursor to this cell, and more telemetry. -/
theorem coefficients_of_center_after_rebuild :
    let actions : List Action := [.update fun _ => some 840, .apply .gyro 1 0.5,
      .rebuild {} {} { samplesPerLoop := 8 }, .moveCursor { motor := 2, harmonic := 2, bank := 0 },
      .update fun motor => if motor = 2 then none else some 600]
    ∃ filter bank center, new {} {} {} = .ok filter ∧
      (filter.perform actions).bank? .gyro = some bank ∧
      2 < (filter.perform actions).motorCount ∧ 2 < bank.harmonics ∧
      ∀ axis < axisCount,
        (filter.perform actions).center? .gyro axis 2 2 = some center ∧
        (filter.perform actions).coefficients? .gyro axis 2 2 =
          some (Biquad.passThrough.retune center bank.micros bank.quality).coefficients := by
  intro actions
  let filter := (ofSettings {} {} {} 125).moveCursor .start
  have built : new {} {} {} = .ok filter := rfl
  have harmonics : ((filter.perform actions).bank? .gyro).map Bank.harmonics = some 3 := by
    decide +kernel
  have motors : 2 < (filter.perform actions).motorCount := by decide +kernel
  rcases Option.map_eq_some_iff.mp harmonics with ⟨bank, present, count⟩
  have harmonicLt : 2 < bank.harmonics := by omega
  rcases coefficients_of_center built actions present motors harmonicLt with ⟨center, settled⟩
  exact ⟨filter, bank, center, built, present, motors, harmonicLt, settled⟩

end Coefficients

end Filter

end Rotor

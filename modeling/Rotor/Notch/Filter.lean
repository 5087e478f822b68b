import Rotor.Notch.Bank
import Rotor.Notch.Cursor
import Rotor.Notch.Placement
import Rotor.Notch.Smoother
import Rotor.Single

/-!
# The notch filter

The filter removes the harmonics of the motors from the gyro signal and from the D-term. It has a
bank for each signal that is switched on, and follows the telemetry of the motors: in every turn of
the control loop it smooths the telemetry and retunes a few cells, so many that a sweep over all
cells takes about a millisecond. The speed of a motor is looked up when the cursor comes to it, so
that all its notches follow one speed.
-/

namespace Rotor

/-- Why a filter cannot be built. -/
inductive FilterError
  /-- The settings are refused. -/
  | settings (cause : SettingsError)
  /-- A computation on the settings has no answer. -/
  | fault (cause : Fault)
  deriving DecidableEq, Repr, Inhabited

/-- The notch filter. -/
structure Filter where
  /-- The banks that are on, the gyro bank first. -/
  banks : List Bank
  motorCount : Nat
  smoother : Smoother
  /-- The speeds that the notches follow, in turns per second. -/
  speeds : List Float32
  /-- The cells that are retuned in one turn of the control loop. -/
  retunesPerTick : Nat
  cursor : Cursor

namespace Filter

/-- The number of harmonics in each bank. -/
def sizes (filter : Filter) : List Nat :=
  filter.banks.map Bank.harmonics

/-- The cells to retune in one turn of the control loop, so that `cells` cells are done in about a
millisecond. It is at least one. -/
def retunesFor (cells : Nat) (micros : UInt32) : Nat :=
  let loopsPerSweep := 1000 / micros.toFloat32
  let perLoop := (UInt32.ofNat cells).toFloat32 / loopsPerSweep
  max (Single.round (perLoop + 0.49)).toUInt64.toNat 1

/-- The bank of a signal, none where it is off. -/
def bankFor (signal : Signal) (settings : BankSettings) (micros : UInt32) (motorCount : Nat) :
    Option Bank :=
  if settings.isEnabled then
    some (.new signal settings.harmonics.toNat settings.minHertz.toFloat32 settings.qualityRatio
      micros.toFloat32 motorCount)
  else
    none

/-- The banks that are on. Without telemetry there is nothing to follow, and all are off. -/
def banksFor (settings : FilterSettings) (motors : MotorSettings) (timing : Timing)
    (micros : UInt32) : List Bank :=
  if motors.telemetry then
    let motorCount := motors.motorCount.toNat
    (bankFor .gyro settings.gyro timing.gyroMicros motorCount).toList ++
      (bankFor .dterm settings.dterm micros motorCount).toList
  else
    []

/-- Moves the cursor. A place outside the table becomes the first one. -/
def moveCursor (filter : Filter) (cursor : Cursor) : Filter :=
  { filter with cursor := cursor.clamp filter.motorCount filter.sizes }

/-- The filter for accepted settings, before the cursor is placed. -/
def ofSettings (settings : FilterSettings) (motors : MotorSettings) (timing : Timing)
    (micros : UInt32) : Filter :=
  let banks := banksFor settings motors timing micros
  let motorCount := motors.motorCount.toNat
  let cells := Cursor.cellsIn (banks.map Bank.harmonics) * motorCount
  { banks, motorCount
    smoother := .new motors.poleCount micros
    speeds := List.replicate maxMotors 0
    retunesPerTick := if banks.isEmpty then 0 else retunesFor cells micros
    cursor := .start }

/-- Accepts settings of the filter, the motors and the timing that are accepted each, looked at in
this order. -/
def checkSettings (settings : FilterSettings) (motors : MotorSettings) (timing : Timing) :
    Except SettingsError Unit := do
  settings.validate
  motors.validate
  timing.validate

/-- The filter for new settings. Only the cursor is kept, as far as it fits the new table. -/
def rebuild (filter : Filter) (settings : FilterSettings) (motors : MotorSettings)
    (timing : Timing) : Except FilterError Filter := do
  (checkSettings settings motors timing).mapError .settings
  let micros ← timing.loopMicros.mapError .fault
  return (ofSettings settings motors timing micros).moveCursor filter.cursor

/-- A filter that has seen nothing. The time of a turn of the control loop is computed before the
settings are looked at. -/
def new (settings : FilterSettings) (motors : MotorSettings) (timing : Timing) :
    Except FilterError Filter := do
  let micros ← timing.loopMicros.mapError .fault
  (checkSettings settings motors timing).mapError .settings
  return (ofSettings settings motors timing micros).moveCursor .start

/-- Whether any bank is on. -/
def isActive (filter : Filter) : Bool :=
  !filter.banks.isEmpty

/-- The speed that the notches of a motor follow, zero for one that is not there. -/
def speed (filter : Filter) (motor : Nat) : Float32 :=
  filter.speeds.getD motor 0

/-- Retunes the cell of the cursor. -/
def retuneCell (filter : Filter) : Filter :=
  let cursor := filter.cursor
  { filter with
    banks := filter.banks.modify cursor.bank fun bank =>
      let harmonic := (UInt32.ofNat (cursor.harmonic + 1)).toFloat32
      let frequency := harmonic * filter.speed cursor.motor
      bank.retune cursor.motor cursor.harmonic (Notch.place frequency bank.lowest bank.parked) }

/-- Moves the cursor on. When it comes to a motor, the speed of that motor is looked up. -/
def advance (filter : Filter) : Filter :=
  let cursor := filter.cursor.next filter.motorCount filter.sizes
  { filter with
    cursor
    speeds :=
      if filter.cursor.endsMotor filter.sizes then
        filter.speeds.set cursor.motor (filter.smoother.hertz cursor.motor)
      else
        filter.speeds }

/-- Retunes the cell of the cursor and moves on. -/
def retuneNext (filter : Filter) : Filter :=
  filter.retuneCell.advance

/-- Takes in the telemetry of one turn of the control loop and retunes the next cells. -/
def update (filter : Filter) (telemetry : Nat → Option UInt16) : Filter :=
  if filter.banks.isEmpty ∨ filter.motorCount = 0 then
    filter
  else
    let smoothed :=
      { filter with smoother := filter.smoother.updateAll filter.motorCount telemetry }
    Nat.repeat retuneNext filter.retunesPerTick smoothed

/-- The bank of a signal, none where it is off. -/
def bank? (filter : Filter) (signal : Signal) : Option Bank :=
  filter.banks.find? fun bank => bank.signal = signal

/-- Passes one sample of a signal on an axis. Where the bank is off the sample stays as it is. -/
def apply (filter : Filter) (signal : Signal) (axis : Nat) (value : Float32) : Float32 × Filter :=
  match filter.bank? signal with
  | none => (value, filter)
  | some bank =>
    let (output, next) := bank.apply axis value
    (output,
      { filter with
        banks := filter.banks.map fun other => if other.signal = signal then next else other })

/-- The frequency that a notch is tuned to. -/
def center? (filter : Filter) (signal : Signal) (axis motor harmonic : Nat) : Option Float32 :=
  if axis < axisCount then
    (filter.bank? signal).bind fun bank => bank.center? motor harmonic
  else
    none

/-- The coefficients of a notch. -/
def coefficients? (filter : Filter) (signal : Signal) (axis motor harmonic : Nat) :
    Option Coefficients :=
  (filter.bank? signal).bind fun bank =>
    (bank.notch? axis motor harmonic).map Biquad.coefficients

/-- The frequency at which the notches of a signal are parked. -/
def parked? (filter : Filter) (signal : Signal) : Option Float32 :=
  (filter.bank? signal).map Bank.parked

/-- The smoothed telemetry counts of all motors, zero for those that are not there. -/
def counts (filter : Filter) : List Float32 :=
  (List.range maxMotors).map fun motor =>
    if motor < filter.motorCount then filter.smoother.count motor else 0

end Filter

end Rotor

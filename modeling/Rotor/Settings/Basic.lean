import Rotor.Fault
import Rotor.Wire.Protocol

/-!
# Settings

The settings of the motor link, of the notch filter and of the control loop, with the checks that
they have to pass.
-/

namespace Rotor

/-- Why settings, or a stored record of them, are refused. -/
inductive SettingsError
  | tooManyHarmonics (harmonics : UInt8)
  | tooManyMotors (motors : UInt8)
  | badPoleCount (poles : UInt8)
  | badLoopTime
  | badQuality
  | badProtocol (code : UInt8)
  | badMagic
  | badVersion (version : Nat)
  | badSize (size : Nat)
  | badChecksum
  deriving DecidableEq, Repr, Inhabited

namespace SettingsError

/-- The report of a refusal. -/
def message : SettingsError → String
  | tooManyHarmonics harmonics => s!"{harmonics} harmonics requested, at most 3 supported"
  | tooManyMotors motors => s!"{motors} motors requested, at most 8 supported"
  | badPoleCount poles => s!"motor pole count {poles} must be even and at least 2"
  | badLoopTime => "loop time must be non-zero"
  | badQuality => "notch Q must be non-zero"
  | badProtocol code => s!"unknown motor protocol {code}"
  | badMagic => "config record magic mismatch"
  | badVersion version => s!"config record version {version} not supported"
  | badSize size => s!"config record size {size} invalid"
  | badChecksum => "config record checksum mismatch"

end SettingsError

/-- The most motors that a link serves. -/
def maxMotors : Nat := 8

/-- The most harmonics that a notch bank follows. -/
def maxHarmonics : Nat := 3

/-- Settings of one bank of notches. -/
structure BankSettings where
  /-- Harmonics followed for each motor; without any the bank is off. -/
  harmonics : UInt8
  /-- The lowest notch frequency, in hertz. -/
  minHertz : UInt8
  /-- The quality of a notch, in hundredths. -/
  quality : UInt16
  deriving DecidableEq, Repr, Inhabited

namespace BankSettings

/-- The quality of a notch as a plain ratio. -/
def qualityRatio (settings : BankSettings) : Float32 :=
  settings.quality.toFloat32 / 100

/-- Whether the bank follows any harmonic. -/
def isEnabled (settings : BankSettings) : Bool :=
  0 < settings.harmonics

/-- Accepts at most three harmonics, and a quality above zero where the bank is on. -/
def validate (settings : BankSettings) : Except SettingsError Unit :=
  if maxHarmonics < settings.harmonics.toNat then
    .error (.tooManyHarmonics settings.harmonics)
  else if settings.isEnabled ∧ settings.quality = 0 then
    .error .badQuality
  else
    .ok ()

end BankSettings

/-- Settings of the notch filter: a bank for the gyro signal and one for the D-term. -/
structure FilterSettings where
  gyro : BankSettings := { harmonics := 3, minHertz := 100, quality := 500 }
  dterm : BankSettings := { harmonics := 1, minHertz := 100, quality := 500 }
  deriving DecidableEq, Repr, Inhabited

/-- Accepts settings whose two banks are accepted, the gyro bank being looked at first. -/
def FilterSettings.validate (settings : FilterSettings) : Except SettingsError Unit := do
  settings.gyro.validate
  settings.dterm.validate

/-- Settings of the motor link. -/
structure MotorSettings where
  motorCount : UInt8 := 4
  /-- Magnet poles of a motor, not pairs of poles. -/
  poleCount : UInt8 := 14
  protocol : Protocol := .dshot600
  /-- Whether the motors answer on the same wire. -/
  telemetry : Bool := true
  /-- Whether one burst serves all channels of a timer. -/
  burst : Bool := false
  deriving DecidableEq, Repr, Inhabited

/-- Accepts at most eight motors, with an even number of poles that is not zero. -/
def MotorSettings.validate (settings : MotorSettings) : Except SettingsError Unit :=
  if maxMotors < settings.motorCount.toNat then
    .error (.tooManyMotors settings.motorCount)
  else if settings.poleCount < 2 ∨ settings.poleCount % 2 ≠ 0 then
    .error (.badPoleCount settings.poleCount)
  else
    .ok ()

/-- Timing of the control loop. -/
structure Timing where
  /-- The time from one gyro sample to the next, in microseconds. -/
  gyroMicros : UInt32 := 125
  /-- Gyro samples for each turn of the control loop. -/
  samplesPerLoop : UInt8 := 1
  deriving DecidableEq, Repr, Inhabited

namespace Timing

/-- The time of one turn of the control loop in microseconds, as far as it fits a 32-bit word. -/
def loopMicros (timing : Timing) : Except Fault UInt32 :=
  (Fault.checkedMul UInt32.size timing.gyroMicros.toNat timing.samplesPerLoop.toNat).map UInt32.ofNat

/-- Accepts times that are not zero. -/
def validate (timing : Timing) : Except SettingsError Unit :=
  if timing.gyroMicros = 0 ∨ timing.samplesPerLoop = 0 then .error .badLoopTime else .ok ()

end Timing

/-- The settings that are kept over a power cycle. -/
structure StoredSettings where
  filter : FilterSettings := {}
  motor : MotorSettings := {}
  deriving DecidableEq, Repr, Inhabited

/-- Accepts settings whose two parts are accepted, the filter being looked at first. -/
def StoredSettings.validate (settings : StoredSettings) : Except SettingsError Unit := do
  settings.filter.validate
  settings.motor.validate

end Rotor

import Rotor.Settings.Basic
import Rotor.Signal.Lowpass

/-!
# Motor speeds

Telemetry counts electrical revolutions per minute, in hundreds. A smoother runs a lowpass over the
counts of every motor and turns its state into the frequency at which the motor turns. A motor
without a reply keeps its state.
-/

namespace Rotor

namespace Notch

/-- The turns per second of one telemetry count, for a motor with `poles` magnet poles. -/
def hertzPerCount (poles : UInt8) : Float32 :=
  100 / 60 / (poles.toFloat32 / 2)

/-- The cutoff of the lowpass over telemetry, in hertz. -/
def speedCutoff : Float32 := 150

end Notch

/-- A lowpass over the telemetry of every motor. -/
structure Smoother where
  filters : List Lowpass
  /-- The turns per second of one telemetry count. -/
  hertzPerCount : Float32

namespace Smoother

/-- A smoother that has seen nothing, for motors with `poles` magnet poles and samples `micros`
microseconds apart. -/
def new (poles : UInt8) (micros : UInt32) : Smoother where
  filters := List.replicate maxMotors
    (.ofGain (Lowpass.gainFor Notch.speedCutoff (micros.toFloat32 * 0.000001)))
  hertzPerCount := Notch.hertzPerCount poles

/-- Takes in one sample of a motor, or that there is none. -/
def update (smoother : Smoother) (motor : Nat) : Option UInt16 → Smoother
  | some count =>
    { smoother with
      filters := smoother.filters.modify motor fun filter => filter.apply count.toFloat32 }
  | none => smoother

/-- The smoothed telemetry count of a motor, zero for one that is not there. -/
def count (smoother : Smoother) (motor : Nat) : Float32 :=
  match smoother.filters[motor]? with
  | some filter => filter.state
  | none => 0

/-- The smoothed turns per second of a motor. -/
def hertz (smoother : Smoother) (motor : Nat) : Float32 :=
  smoother.count motor * smoother.hertzPerCount

/-- Takes in one sample of each of the first `motorCount` motors. -/
def updateAll (smoother : Smoother) (motorCount : Nat) (telemetry : Nat → Option UInt16) :
    Smoother :=
  (List.range motorCount).foldl (fun smoother motor => smoother.update motor (telemetry motor))
    smoother

end Smoother

end Rotor

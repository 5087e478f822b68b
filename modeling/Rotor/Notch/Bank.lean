import Rotor.Signal.Biquad

/-!
# Banks of notches

A bank has a notch for every axis, motor and harmonic. The notches of one motor and harmonic share
their center and their coefficients on all axes, but each has a delay line of its own. A sample of
an axis passes the notches of all motors and harmonics of that axis, one after the other.
-/

namespace Rotor

/-- The signals that have a bank. -/
inductive Signal
  | gyro
  | dterm
  deriving DecidableEq, Repr, Inhabited

/-- The axes of a signal. -/
def axisCount : Nat := 3

/-- Passes a value through a list of stages, each of which keeps a state. -/
def through {Stage : Type} (apply : Stage → Float32 → Float32 × Stage) :
    List Stage → Float32 → Float32 × List Stage
  | [], value => (value, [])
  | stage :: rest, value =>
    let (passed, next) := apply stage value
    let (output, others) := through apply rest passed
    (output, next :: others)

@[simp]
theorem length_through {Stage : Type} (apply : Stage → Float32 → Float32 × Stage)
    (stages : List Stage) (value : Float32) :
    (through apply stages value).2.length = stages.length := by
  induction stages generalizing value with
  | nil => rfl
  | cons stage rest ih => simp [through, ih]

/-- The notches of one signal. -/
structure Bank where
  signal : Signal
  /-- The harmonics that are followed for each motor. -/
  harmonics : Nat
  /-- The lowest frequency of a notch, in hertz. -/
  lowest : Float32
  /-- The quality of a notch. -/
  quality : Float32
  /-- The time between two samples, in microseconds. -/
  micros : Float32
  /-- The frequency at which a notch is parked, in hertz. -/
  parked : Float32
  /-- The notches by axis, motor and harmonic. -/
  notches : List (List (List Biquad))
  /-- The frequencies that the notches are tuned to, by motor and harmonic. -/
  centers : List (List Float32)

namespace Bank

/-- The parking frequency for samples `micros` microseconds apart: 1000 hertz, or half the sampling
rate where that is less. -/
def parkingFrequency (micros : Float32) : Float32 :=
  let nyquist := 500000 / micros
  if nyquist < 1000 then nyquist else 1000

/-- A bank whose notches are parked and have seen nothing. -/
def new (signal : Signal) (harmonics : Nat) (lowest quality micros : Float32) (motorCount : Nat) :
    Bank :=
  let parked := parkingFrequency micros
  { signal, harmonics, lowest, quality, micros, parked
    notches := List.replicate axisCount <| List.replicate motorCount <|
      List.replicate harmonics (.notch parked micros quality)
    centers := List.replicate motorCount (List.replicate harmonics parked) }

/-- Moves the notches of one motor and harmonic to another frequency, on all axes. -/
def retune (bank : Bank) (motor harmonic : Nat) (frequency : Float32) : Bank :=
  let coefficients := Coefficients.notch frequency bank.micros bank.quality
  { bank with
    notches := bank.notches.map fun axis => axis.modify motor fun row =>
      row.modify harmonic fun filter => filter.withCoefficients coefficients
    centers := bank.centers.modify motor fun row => row.set harmonic frequency }

/-- Passes a sample of an axis. On an axis that is not there a sample stays as it is. -/
def apply (bank : Bank) (axis : Nat) (value : Float32) : Float32 × Bank :=
  match bank.notches[axis]? with
  | none => (value, bank)
  | some rows =>
    let (output, next) := through (through Biquad.apply) rows value
    (output, { bank with notches := bank.notches.set axis next })

/-- The notch of an axis, a motor and a harmonic. -/
def notch? (bank : Bank) (axis motor harmonic : Nat) : Option Biquad := do
  let rows ← bank.notches[axis]?
  let row ← rows[motor]?
  row[harmonic]?

/-- The frequency that the notches of a motor and a harmonic are tuned to. -/
def center? (bank : Bank) (motor harmonic : Nat) : Option Float32 := do
  let row ← bank.centers[motor]?
  row[harmonic]?

end Bank

end Rotor

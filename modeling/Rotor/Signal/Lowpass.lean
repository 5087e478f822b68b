import Rotor.Signal.Wave

/-!
# First-order lowpass

A lowpass that moves its state toward each input by a fixed share of the distance.
-/

namespace Rotor

/-- A first-order lowpass. -/
structure Lowpass where
  gain : Float32
  state : Float32

namespace Lowpass

/-- The gain for a cutoff in hertz, at samples `seconds` seconds apart. -/
def gainFor (cutoff seconds : Float32) : Float32 :=
  let timeConstant := 1 / (2 * Signal.pi * cutoff)
  seconds / (timeConstant + seconds)

/-- A lowpass that has seen nothing. -/
def ofGain (gain : Float32) : Lowpass where
  gain
  state := 0

/-- The lowpass after one sample. Its state is also its output. -/
def apply (filter : Lowpass) (input : Float32) : Lowpass :=
  { filter with state := filter.state + filter.gain * (input - filter.state) }

/-- A lowpass with its state cleared. -/
def reset (filter : Lowpass) : Lowpass :=
  { filter with state := 0 }

end Lowpass

end Rotor

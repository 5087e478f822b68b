import Rotor.Single

/-!
# Sine and cosine

A cosine in single precision that folds the argument into one turn and runs a parabola through the
zeros and the peaks of the wave, with one correction. All steps are in the order given here, each
with one rounding, since the coefficients of a notch depend on the last bit.
-/

namespace Rotor.Signal

/-- Half a turn, in radians. -/
def pi : Float32 := 3.14159265

/-- The cosine of an angle in radians. -/
def cosine (angle : Float32) : Float32 :=
  let turns := angle * (0.31830987 / 2)
  let folded := turns - (0.25 + Single.floor (turns + 0.25))
  let parabola := folded * (16 * (folded.abs - 0.5))
  parabola + (0.225 * parabola) * (parabola.abs - 1)

/-- The sine of an angle in radians. -/
def sine (angle : Float32) : Float32 :=
  cosine (angle - pi / 2)

end Rotor.Signal

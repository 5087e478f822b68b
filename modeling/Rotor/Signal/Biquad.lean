import Rotor.Signal.Wave

/-!
# Biquad filters

A second-order filter in direct form 1: five coefficients, and a delay line that holds the last two
inputs and outputs. A notch is retuned by new coefficients under the old delay line, so that a
moving notch leaves no step in the output.
-/

namespace Rotor

/-- The coefficients of a biquad, divided by the leading one. -/
structure Coefficients where
  b0 : Float32
  b1 : Float32
  b2 : Float32
  a1 : Float32
  a2 : Float32

namespace Coefficients

/-- The filter that gives back its input. -/
def passThrough : Coefficients where
  b0 := 1
  b1 := 0
  b2 := 0
  a1 := 0
  a2 := 0

/-- The notch at `center` hertz for samples `micros` microseconds apart. -/
def notch (center micros quality : Float32) : Coefficients :=
  let omega := 2 * Signal.pi * center * micros * 0.000001
  let alpha := Signal.sine omega / (2 * quality)
  let a0 := 1 + alpha
  let b1 := -2 * Signal.cosine omega / a0
  { b0 := 1 / a0, b1, b2 := 1 / a0, a1 := b1, a2 := (1 - alpha) / a0 }

/-- The coefficients in the order `b0`, `b1`, `b2`, `a1`, `a2`. -/
def toList (coefficients : Coefficients) : List Float32 :=
  [coefficients.b0, coefficients.b1, coefficients.b2, coefficients.a1, coefficients.a2]

end Coefficients

/-- The last two inputs and the last two outputs of a biquad, the latest first. -/
structure DelayLine where
  x1 : Float32
  x2 : Float32
  y1 : Float32
  y2 : Float32

/-- The delay line of a filter that has seen nothing. -/
def DelayLine.zero : DelayLine where
  x1 := 0
  x2 := 0
  y1 := 0
  y2 := 0

/-- A delay line after one more input and its output. -/
def DelayLine.push (line : DelayLine) (input output : Float32) : DelayLine where
  x1 := input
  x2 := line.x1
  y1 := output
  y2 := line.y1

/-- A second-order filter. -/
structure Biquad where
  coefficients : Coefficients
  line : DelayLine

namespace Biquad

/-- A filter that gives back its input. -/
def passThrough : Biquad where
  coefficients := .passThrough
  line := .zero

/-- A filter with other coefficients and the same delay line. -/
def withCoefficients (filter : Biquad) (coefficients : Coefficients) : Biquad :=
  { filter with coefficients }

/-- A notch that has seen nothing. -/
def notch (center micros quality : Float32) : Biquad where
  coefficients := .notch center micros quality
  line := .zero

/-- A filter moved to another notch, its delay line kept. -/
def retune (filter : Biquad) (center micros quality : Float32) : Biquad :=
  filter.withCoefficients (.notch center micros quality)

/-- A filter with its delay line cleared. -/
def reset (filter : Biquad) : Biquad :=
  { filter with line := .zero }

/-- The output for one sample. -/
def output (filter : Biquad) (input : Float32) : Float32 :=
  filter.coefficients.b0 * input + filter.coefficients.b1 * filter.line.x1 +
    filter.coefficients.b2 * filter.line.x2 - filter.coefficients.a1 * filter.line.y1 -
    filter.coefficients.a2 * filter.line.y2

/-- Passes one sample: the output, and the filter that remembers both. -/
def apply (filter : Biquad) (input : Float32) : Float32 × Biquad :=
  let output := filter.output input
  (output, { filter with line := filter.line.push input output })

@[simp]
theorem coefficients_apply (filter : Biquad) (input : Float32) :
    (filter.apply input).2.coefficients = filter.coefficients := rfl

@[simp]
theorem line_withCoefficients (filter : Biquad) (coefficients : Coefficients) :
    (filter.withCoefficients coefficients).line = filter.line := rfl

end Biquad

end Rotor

/-!
# Whole numbers in single precision

Truncation, floor and rounding of binary32 values by way of a signed 32-bit integer. Values outside
its range saturate and a NaN counts as zero, so every function here is total.
-/

namespace Rotor.Single

/-- The integer part of `value`, cut toward zero and held between `-2 ^ 31` and `2 ^ 31 - 1`. -/
def truncate (value : Float32) : Float32 :=
  let bound : UInt32 := if value < 0 then 0x80000000 else 0x7FFFFFFF
  let magnitude := min value.abs.toUInt32 bound
  if value < 0 ∧ magnitude ≠ 0 then -magnitude.toFloat32 else magnitude.toFloat32

/-- The greatest whole number that is not above `value`, for values in the range of `truncate`. -/
def floor (value : Float32) : Float32 :=
  let whole := truncate value
  if value < whole then whole - 1 else whole

/-- The sign bit, which also a zero and a NaN carry. -/
def isSigned (value : Float32) : Bool :=
  value.toBits ≥ 0x80000000

/-- The nearest whole number, halves away from zero, by adding a half with the sign of `value`. -/
def round (value : Float32) : Float32 :=
  truncate (value + if isSigned value then -0.5 else 0.5)

end Rotor.Single

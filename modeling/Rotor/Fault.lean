/-!
# Faults

A few computations of the library have no answer for some arguments: a product that must fit a
machine word and does not, and a region that starts behind the end of its buffer. They end in a
`Fault`, which names the cause.
-/

namespace Rotor

/-- Why a computation has no answer. -/
inductive Fault
  /-- A product does not fit the word that has to hold it. -/
  | productOverflow
  /-- A region was to start at `start` in a buffer of `length` words. -/
  | startPastEnd (start length : Nat)
  deriving DecidableEq, Repr, Inhabited

namespace Fault

/-- The report of a fault. -/
def message : Fault → String
  | productOverflow => "attempt to multiply with overflow"
  | startPastEnd start length =>
      s!"range start index {start} out of range for slice of length {length}"

/-- The product of two numbers, if it is below `bound`. -/
def checkedMul (bound left right : Nat) : Except Fault Nat :=
  if left * right < bound then .ok (left * right) else .error productOverflow

theorem checkedMul_eq_ok_iff {bound left right product : Nat} :
    checkedMul bound left right = .ok product ↔
      left * right < bound ∧ product = left * right := by
  unfold checkedMul
  split
  · simp [eq_comm, *]
  · simp; omega

theorem checkedMul_eq_error_iff {bound left right : Nat} {fault : Fault} :
    checkedMul bound left right = .error fault ↔
      bound ≤ left * right ∧ fault = productOverflow := by
  unfold checkedMul
  split
  · simp; omega
  · simp [eq_comm]; omega

end Fault

end Rotor

/-!
# The place of the next retune

Retuning every notch in every turn of the control loop is too much work. A cursor goes round the
cells of all banks and says which one is next: the harmonics of one bank, then those of the next
bank, then the next motor.
-/

namespace Rotor

/-- The cell that is retuned next. -/
structure Cursor where
  motor : Nat
  harmonic : Nat
  bank : Nat
  deriving DecidableEq, Repr, Inhabited

namespace Cursor

/-- The first cell. -/
def start : Cursor where
  motor := 0
  harmonic := 0
  bank := 0

/-- A cursor moved into a table of `motorCount` motors and banks of the given sizes. A place past
the end becomes the first one, the bank being settled before the harmonic. -/
def clamp (cursor : Cursor) (motorCount : Nat) (sizes : List Nat) : Cursor :=
  let bank := if cursor.bank < sizes.length then cursor.bank else 0
  { motor := if cursor.motor < motorCount then cursor.motor else 0
    harmonic := if cursor.harmonic < sizes.getD bank 0 then cursor.harmonic else 0
    bank }

/-- The cell after this one. -/
def next (cursor : Cursor) (motorCount : Nat) (sizes : List Nat) : Cursor :=
  if cursor.harmonic + 1 < sizes.getD cursor.bank 0 then
    { cursor with harmonic := cursor.harmonic + 1 }
  else if cursor.bank + 1 < sizes.length then
    { cursor with harmonic := 0, bank := cursor.bank + 1 }
  else
    { motor := if cursor.motor + 1 < motorCount then cursor.motor + 1 else 0
      harmonic := 0
      bank := 0 }

/-- Whether the cell after this one belongs to the next motor. -/
def endsMotor (cursor : Cursor) (sizes : List Nat) : Bool :=
  sizes.getD cursor.bank 0 ≤ cursor.harmonic + 1 ∧ sizes.length ≤ cursor.bank + 1

/-- The number of cells that a motor has in banks of the given sizes. -/
def cellsIn : List Nat → Nat
  | [] => 0
  | size :: rest => size + cellsIn rest

/-- The number of a cell in the order of the cursor. -/
def position (cursor : Cursor) (sizes : List Nat) : Nat :=
  cursor.motor * cellsIn sizes + cellsIn (sizes.take cursor.bank) + cursor.harmonic

end Cursor

end Rotor

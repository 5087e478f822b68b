import Mathlib.Data.List.GetD
import Mathlib.Data.List.Nodup
import Mathlib.Data.Nat.ModEq
import Rotor.Notch.Cursor

/-!
# The order of the cells

The cells of a table are numbered motor by motor, for each motor bank by bank, and in each bank by
harmonic: `Cursor.position`. This numbers them without gaps and without repetition, although the
banks differ in size, and the cell after a cell has the next number, going round at the end of the
table (`Cursor.position_next`). So any stretch of as many steps as there are cells meets each cell
once.
-/

namespace Rotor

namespace Cursor

variable {cursor other : Cursor} {motorCount : Nat} {sizes : List Nat}

/-- The cursor is at a cell of a table with the given number of motors and sizes of the banks. -/
structure Within (cursor : Cursor) (motorCount : Nat) (sizes : List Nat) : Prop where
  motor_lt : cursor.motor < motorCount
  bank_lt : cursor.bank < sizes.length
  harmonic_lt : cursor.harmonic < sizes.getD cursor.bank 0

section Cells

@[simp]
theorem cellsIn_append (first second : List Nat) :
    cellsIn (first ++ second) = cellsIn first + cellsIn second := by
  induction first with
  | nil => simp [cellsIn]
  | cons size rest ih => simp [cellsIn, ih, Nat.add_assoc]

theorem cellsIn_take_succ {bank : Nat} (bankLt : bank < sizes.length) :
    cellsIn (sizes.take (bank + 1)) = cellsIn (sizes.take bank) + sizes.getD bank 0 := by
  rw [List.take_succ_eq_append_getElem bankLt, cellsIn_append, List.getD_eq_getElem _ _ bankLt]
  simp [cellsIn]

theorem cellsIn_take_le {bank later : Nat} (inOrder : bank ≤ later) :
    cellsIn (sizes.take bank) ≤ cellsIn (sizes.take later) := by
  have parts : sizes.take later = sizes.take bank ++ (sizes.take later).drop bank := by
    conv_lhs => rw [← List.take_append_drop bank (sizes.take later), List.take_take,
      Nat.min_eq_left inOrder]
  rw [parts, cellsIn_append]
  omega

/-- The cells of a bank lie before those of the next. -/
theorem cellsIn_bank_le {bank later : Nat} (before : bank < later) (bankLt : bank < sizes.length) :
    cellsIn (sizes.take bank) + sizes.getD bank 0 ≤ cellsIn (sizes.take later) := by
  rw [← cellsIn_take_succ bankLt]
  exact cellsIn_take_le before

end Cells

section Position

/-- The number of a cell among those of its motor. -/
def offset (cursor : Cursor) (sizes : List Nat) : Nat :=
  cellsIn (sizes.take cursor.bank) + cursor.harmonic

theorem position_eq (cursor : Cursor) (sizes : List Nat) :
    cursor.position sizes = cursor.motor * cellsIn sizes + cursor.offset sizes := by
  simp [position, offset, Nat.add_assoc]

theorem offset_lt (within : cursor.Within motorCount sizes) :
    cursor.offset sizes < cellsIn sizes := by
  have bound := cellsIn_bank_le within.bank_lt within.bank_lt
  have inBank := within.harmonic_lt
  rw [List.take_length] at bound
  simp only [offset]
  omega

theorem position_lt (within : cursor.Within motorCount sizes) :
    cursor.position sizes < motorCount * cellsIn sizes := by
  have inMotor := offset_lt within
  have motors : (cursor.motor + 1) * cellsIn sizes ≤ motorCount * cellsIn sizes :=
    Nat.mul_le_mul_right _ within.motor_lt
  rw [Nat.succ_mul] at motors
  rw [position_eq]
  omega

theorem offset_injective (within : cursor.Within motorCount sizes)
    (otherWithin : other.Within motorCount sizes)
    (same : cursor.offset sizes = other.offset sizes) :
    cursor.bank = other.bank ∧ cursor.harmonic = other.harmonic := by
  have inBank := within.harmonic_lt
  have otherInBank := otherWithin.harmonic_lt
  simp only [offset] at same
  rcases Nat.lt_trichotomy cursor.bank other.bank with before | equal | after
  · have apart := cellsIn_bank_le before within.bank_lt
    omega
  · rw [equal] at same
    exact ⟨equal, by omega⟩
  · have apart := cellsIn_bank_le after otherWithin.bank_lt
    omega

theorem position_injective (within : cursor.Within motorCount sizes)
    (otherWithin : other.Within motorCount sizes)
    (same : cursor.position sizes = other.position sizes) : cursor = other := by
  have inMotor := offset_lt within
  have otherInMotor := offset_lt otherWithin
  have cells : 0 < cellsIn sizes := by omega
  rw [position_eq, position_eq, Nat.mul_comm, Nat.mul_comm other.motor] at same
  have motors : cursor.motor = other.motor := by
    have quotients := congrArg (· / cellsIn sizes) same
    simpa [Nat.mul_add_div cells, Nat.div_eq_of_lt inMotor, Nat.div_eq_of_lt otherInMotor]
      using quotients
  have offsets : cursor.offset sizes = other.offset sizes := by
    rw [motors] at same
    omega
  rcases offset_injective within otherWithin offsets with ⟨banks, harmonics⟩
  cases cursor
  cases other
  simp_all

end Position

section Next

/-- The cell after a cell: the next harmonic, or else the first cell of the next bank, or else the
first cell of the next motor. -/
inductive Following (cursor : Cursor) (motorCount : Nat) (sizes : List Nat) : Cursor → Prop
  | harmonic (more : cursor.harmonic + 1 < sizes.getD cursor.bank 0) :
      Following cursor motorCount sizes { cursor with harmonic := cursor.harmonic + 1 }
  | bank (last : sizes.getD cursor.bank 0 ≤ cursor.harmonic + 1)
      (more : cursor.bank + 1 < sizes.length) :
      Following cursor motorCount sizes { cursor with harmonic := 0, bank := cursor.bank + 1 }
  | motor (last : sizes.getD cursor.bank 0 ≤ cursor.harmonic + 1)
      (lastBank : sizes.length ≤ cursor.bank + 1) :
      Following cursor motorCount sizes
        { motor := if cursor.motor + 1 < motorCount then cursor.motor + 1 else 0
          harmonic := 0
          bank := 0 }

theorem following_next (cursor : Cursor) (motorCount : Nat) (sizes : List Nat) :
    cursor.Following motorCount sizes (cursor.next motorCount sizes) := by
  simp only [next]
  split
  · next more => exact .harmonic more
  · next last =>
    split
    · next more => exact .bank (Nat.le_of_not_lt last) more
    · next lastBank => exact .motor (Nat.le_of_not_lt last) (Nat.le_of_not_lt lastBank)

theorem getD_pos (positive : ∀ size ∈ sizes, 0 < size) {bank : Nat} (bankLt : bank < sizes.length) :
    0 < sizes.getD bank 0 := by
  rw [List.getD_eq_getElem _ _ bankLt]
  exact positive _ (List.getElem_mem bankLt)

theorem within_next (positive : ∀ size ∈ sizes, 0 < size)
    (within : cursor.Within motorCount sizes) :
    (cursor.next motorCount sizes).Within motorCount sizes := by
  have following := following_next cursor motorCount sizes
  have motorLt := within.motor_lt
  have bankLt := within.bank_lt
  generalize cursor.next motorCount sizes = next at following ⊢
  cases following with
  | harmonic more => exact ⟨motorLt, bankLt, more⟩
  | bank last more => exact ⟨motorLt, more, getD_pos positive more⟩
  | motor last lastBank =>
      have someBank : 0 < sizes.length := by omega
      refine ⟨?_, someBank, getD_pos positive someBank⟩
      dsimp only
      split <;> omega

/-- The cell after a cell has the next number, and the first cell comes after the last. -/
theorem position_next (positive : ∀ size ∈ sizes, 0 < size)
    (within : cursor.Within motorCount sizes) :
    (cursor.next motorCount sizes).position sizes =
      (cursor.position sizes + 1) % (motorCount * cellsIn sizes) := by
  -- Up to the last cell of the table the next number is in the table too, and the remainder is not
  -- needed.
  have inTable := position_lt (within_next positive within)
  have following := following_next cursor motorCount sizes
  have inBank := within.harmonic_lt
  have upTo := cellsIn_take_succ within.bank_lt
  generalize cursor.next motorCount sizes = next at following inTable ⊢
  cases following with
  | harmonic more =>
      have step : position { cursor with harmonic := cursor.harmonic + 1 } sizes =
          cursor.position sizes + 1 := by
        simp only [position]
        omega
      rw [step] at inTable ⊢
      rw [Nat.mod_eq_of_lt inTable]
  | bank last more =>
      have step : position { cursor with harmonic := 0, bank := cursor.bank + 1 } sizes =
          cursor.position sizes + 1 := by
        simp only [position, upTo]
        omega
      rw [step] at inTable ⊢
      rw [Nat.mod_eq_of_lt inTable]
  | motor last lastBank =>
      have bankEnd : cursor.bank + 1 = sizes.length := by
        have bankLt := within.bank_lt
        omega
      rw [bankEnd, List.take_length] at upTo
      have full : cursor.position sizes + 1 = (cursor.motor + 1) * cellsIn sizes := by
        rw [Nat.succ_mul, position_eq]
        simp only [offset]
        omega
      rw [full]
      rcases Nat.lt_or_ge (cursor.motor + 1) motorCount with more | lastMotor
      · have step : position
            { motor := if cursor.motor + 1 < motorCount then cursor.motor + 1 else 0
              harmonic := 0, bank := 0 } sizes = (cursor.motor + 1) * cellsIn sizes := by
          simp [position, more, cellsIn]
        rw [step] at inTable ⊢
        rw [Nat.mod_eq_of_lt inTable]
      · have motorEnd : cursor.motor + 1 = motorCount := by
          have motorLt := within.motor_lt
          omega
        simp [motorEnd, position, cellsIn]

/-- The cursor comes to the first cell of a motor just when it leaves the last cell of the one
before. -/
theorem comesTo_iff (positive : ∀ size ∈ sizes, 0 < size) (within : cursor.Within motorCount sizes)
    {motor : Nat} (motorLt : motor < motorCount) :
    (cursor.endsMotor sizes = true ∧ (cursor.next motorCount sizes).motor = motor) ↔
      (cursor.position sizes + 1) % (motorCount * cellsIn sizes) = motor * cellsIn sizes := by
  have someBank : 0 < sizes.length := by
    have bankLt := within.bank_lt
    omega
  have firstWithin : Within { motor, harmonic := 0, bank := 0 } motorCount sizes :=
    ⟨motorLt, someBank, getD_pos positive someBank⟩
  have firstPosition : position { motor, harmonic := 0, bank := 0 } sizes =
      motor * cellsIn sizes := by
    simp [position, cellsIn]
  -- Cells with the same number are the same, so this is about the first cell of the motor, and the
  -- other two kinds of step end in a cell that is not the first of any motor.
  rw [← position_next positive within, ← firstPosition]
  have nextWithin := within_next positive within
  have following := following_next cursor motorCount sizes
  generalize cursor.next motorCount sizes = next at following nextWithin ⊢
  constructor
  · rintro ⟨ends, rfl⟩
    simp only [endsMotor, decide_eq_true_eq] at ends
    cases following with
    | harmonic more => omega
    | bank last more => omega
    | motor last lastBank => rfl
  · intro samePosition
    have reached := position_injective nextWithin firstWithin samePosition
    cases following with
    | harmonic more => simp at reached
    | bank last more => simp at reached
    | motor last lastBank =>
        refine ⟨by simp only [endsMotor, last, lastBank, and_self, decide_true], ?_⟩
        exact congrArg Cursor.motor reached

end Next

section Clamp

theorem clamp_of_within (within : cursor.Within motorCount sizes) :
    cursor.clamp motorCount sizes = cursor := by
  simp only [clamp, within.motor_lt, within.bank_lt, within.harmonic_lt, if_true]

@[simp]
theorem clamp_clamp (cursor : Cursor) (motorCount : Nat) (sizes : List Nat) :
    (cursor.clamp motorCount sizes).clamp motorCount sizes = cursor.clamp motorCount sizes := by
  simp only [clamp]
  grind

theorem within_clamp (positive : ∀ size ∈ sizes, 0 < size) (someMotor : 0 < motorCount)
    (someBank : 0 < sizes.length) (cursor : Cursor) :
    (cursor.clamp motorCount sizes).Within motorCount sizes := by
  have bankLt : (cursor.clamp motorCount sizes).bank < sizes.length := by
    simp only [clamp]
    split
    · assumption
    · exact someBank
  have motor : (cursor.clamp motorCount sizes).motor =
      if cursor.motor < motorCount then cursor.motor else 0 := rfl
  have harmonic : (cursor.clamp motorCount sizes).harmonic =
      if cursor.harmonic < sizes.getD (cursor.clamp motorCount sizes).bank 0 then
        cursor.harmonic
      else 0 := rfl
  refine ⟨?_, bankLt, ?_⟩
  · rw [motor]
    split <;> assumption
  · have cells := getD_pos positive bankLt
    rw [harmonic]
    split <;> assumption

end Clamp

end Cursor

/-- A stretch of steps as long as the table meets each number once, wherever it begins. -/
theorem count_round {cells value : Nat} (inTable : value < cells) (start : Nat) :
    ((List.range cells).map fun index => (start + index) % cells).count value = 1 := by
  apply List.count_eq_one_of_mem
  · apply List.Nodup.map_on _ List.nodup_range
    intro first firstMem second secondMem same
    rw [List.mem_range] at firstMem secondMem
    have equal : first ≡ second [MOD cells] := Nat.ModEq.add_left_cancel' start same
    exact Nat.ModEq.eq_of_lt_of_lt equal firstMem secondMem
  · rw [List.mem_map]
    -- So many steps lead past the end of the table to the number.
    refine ⟨(value + (cells - start % cells)) % cells, ?_, ?_⟩
    · exact List.mem_range.mpr (Nat.mod_lt _ (by omega))
    · have startLt : start % cells < cells := Nat.mod_lt _ (by omega)
      have whole : start % cells + (value + (cells - start % cells)) = value + cells := by omega
      rw [Nat.add_mod_mod, ← Nat.mod_add_mod, whole, Nat.add_mod_right, Nat.mod_eq_of_lt inTable]

end Rotor

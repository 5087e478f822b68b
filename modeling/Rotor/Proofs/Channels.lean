import Mathlib.Data.Nat.Bitwise
import Mathlib.Tactic.IntervalCases
import Rotor.Hardware

/-!
# Sets of channels

A set of channels is a byte with a bit for each. Here is how membership goes with the operations on
sets, so that nothing later has to look at bits.
-/

namespace Rotor.ChannelSet

variable {set left right : ChannelSet} {index other : UInt8}

theorem toNat_bits_single (index : UInt8) : (single index).bits.toNat = 2 ^ (index.toNat % 4) := by
  have low : index.toNat &&& 3 = index.toNat % 4 := Nat.and_two_pow_sub_one_eq_mod index.toNat 2
  have small : index.toNat % 4 < 4 := Nat.mod_lt _ (by decide)
  simp only [single, UInt8.toNat_shiftLeft, UInt8.toNat_and, UInt8.reduceToNat, low]
  generalize index.toNat % 4 = place at small
  interval_cases place <;> rfl

theorem contains_eq_testBit (set : ChannelSet) (index : UInt8) :
    set.contains index = set.bits.toNat.testBit (index.toNat % 4) := by
  have zero_iff : set.bits &&& (single index).bits = 0 ↔
      set.bits.toNat.testBit (index.toNat % 4) = false := by
    rw [← UInt8.toNat_inj, UInt8.toNat_and, toNat_bits_single, Nat.and_two_pow]
    cases set.bits.toNat.testBit (index.toNat % 4) <;> simp
  unfold contains
  cases member : set.bits.toNat.testBit (index.toNat % 4) <;> simp [zero_iff, member]

@[simp]
theorem contains_union (left right : ChannelSet) (index : UInt8) :
    (left.union right).contains index = (left.contains index || right.contains index) := by
  simp [contains_eq_testBit, union]

@[simp]
theorem contains_single_self (index : UInt8) : (single index).contains index = true := by
  simp [contains_eq_testBit, toNat_bits_single]

theorem contains_single_of_single_ne (differ : single other ≠ single index) :
    (single other).contains index = false := by
  rw [contains_eq_testBit, toNat_bits_single, Nat.testBit_two_pow_of_ne]
  intro samePlace
  apply differ
  have sameBits : (single other).bits = (single index).bits := by
    rw [← UInt8.toNat_inj, toNat_bits_single, toNat_bits_single, samePlace]
  exact congrArg ChannelSet.mk sameBits

@[simp]
theorem contains_empty (index : UInt8) : empty.contains index = false := by
  simp [contains_eq_testBit, empty]

@[simp]
theorem contains_all (index : UInt8) : all.contains index = true := by
  have small : index.toNat % 4 < 4 := Nat.mod_lt _ (by decide)
  rw [contains_eq_testBit]
  generalize index.toNat % 4 = place at small
  interval_cases place <;> rfl

theorem isEmpty_eq_false_of_contains (member : set.contains index = true) :
    set.isEmpty = false := by
  cases empty : set.isEmpty with
  | false => rfl
  | true =>
      have bits : set.bits = 0 := by
        simpa [isEmpty] using empty
      simp [contains_eq_testBit, bits] at member

end Rotor.ChannelSet

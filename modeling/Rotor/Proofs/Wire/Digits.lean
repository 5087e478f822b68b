import Mathlib.Algebra.Ring.Nat
import Mathlib.Data.List.Basic
import Rotor.Wire.Pulse
import Rotor.Wire.Reception

/-!
# Symbols as digits

The symbols of a packet are the digits of its number in the radix of the encoding, most significant
first. A packet is therefore the number that its symbols spell (`Encoding.foldl_symbols`), and the
other way round the digits of a spelled number are the symbols that spell it (`digit_foldl_range`).
-/

namespace Rotor.Encoding

section Radix

variable {radix count : Nat} {digits : Nat → Nat}

/-- The leading digits of a number, read one after the other, are the number without its others. -/
theorem foldl_digits {value : Nat} (small : value < radix ^ count) {taken : Nat}
    (inRange : taken ≤ count) :
    (List.range taken).foldl
      (fun spelled index => radix * spelled + value / radix ^ (count - 1 - index) % radix) 0 =
        value / radix ^ (count - taken) := by
  induction taken with
  | zero => simp [Nat.div_eq_of_lt small]
  | succ taken ih =>
      have place : count - taken = count - 1 - taken + 1 := by omega
      have rest : count - (taken + 1) = count - 1 - taken := by omega
      rw [List.range_succ, List.foldl_append, ih (by omega), place, rest, Nat.pow_succ,
        ← Nat.div_div_eq_div_mul]
      exact Nat.div_add_mod _ radix

theorem foldl_range_lt (small : ∀ index < count, digits index < radix) :
    (List.range count).foldl (fun spelled index => radix * spelled + digits index) 0 <
      radix ^ count := by
  induction count with
  | zero => simp
  | succ count ih =>
      have leading := ih (fun index inRange => small index (by omega))
      have last := small count (Nat.lt_succ_self count)
      rw [List.range_succ, List.foldl_append, Nat.pow_succ']
      calc
        _ < radix * _ + radix := Nat.add_lt_add_left last _
        _ = radix * (_ + 1) := (Nat.mul_succ _ _).symm
        _ ≤ radix * radix ^ count := Nat.mul_le_mul_left _ leading

/-- Digits that are read one after the other are the digits of the number that they make. -/
theorem digit_foldl_range (small : ∀ index < count, digits index < radix) {index : Nat}
    (isDigit : index < count) :
    (List.range count).foldl (fun spelled index => radix * spelled + digits index) 0 /
      radix ^ (count - 1 - index) % radix = digits index := by
  induction count with
  | zero => omega
  | succ count ih =>
      have last := small count (Nat.lt_succ_self count)
      rw [List.range_succ, List.foldl_append]
      simp only [List.foldl_cons, List.foldl_nil]
      by_cases isLast : index = count
      · subst isLast
        simp [Nat.mod_eq_of_lt last]
      · have place : count + 1 - 1 - index = count - 1 - index + 1 := by omega
        rw [place, Nat.pow_succ', ← Nat.div_div_eq_div_mul, Nat.mul_add_div (by omega),
          Nat.div_eq_of_lt last, Nat.add_zero]
        exact ih (fun index inRange => small index (by omega)) (by omega)

/-- The digits below a place do not change when the number is cut off there. -/
theorem digit_mod_pow (radix value : Nat) {place count : Nat} (inRange : place < count) :
    value % radix ^ count / radix ^ place % radix = value / radix ^ place % radix := by
  obtain ⟨rest, rfl⟩ : ∃ rest, count = place + (rest + 1) := ⟨count - place - 1, by omega⟩
  rw [Nat.pow_add, Nat.mod_mul_right_div_self, Nat.pow_succ, Nat.mod_mul_left_mod]

end Radix

section Symbols

variable {encoding : Encoding} {packet other : UInt16}

theorem radix_pos (encoding : Encoding) : 0 < encoding.radix := by
  cases encoding <;> decide

theorem radix_pow_symbolCount (encoding : Encoding) :
    encoding.radix ^ encoding.symbolCount = UInt16.size := by
  cases encoding <;> rfl

theorem symbol_eq_digit (encoding : Encoding) (packet : UInt16) (index : Nat) :
    encoding.symbol packet index =
      packet.toNat / encoding.radix ^ (encoding.symbolCount - 1 - index) % encoding.radix := by
  cases encoding with
  | bits => simp [symbol, radix, symbolCount, Nat.shiftRight_eq_div_pow]
  | nibbles => simp [symbol, radix, symbolCount, Nat.shiftRight_eq_div_pow, Nat.pow_mul]

theorem symbol_lt_radix (encoding : Encoding) (packet : UInt16) (index : Nat) :
    encoding.symbol packet index < encoding.radix := by
  rw [symbol_eq_digit]
  exact Nat.mod_lt _ (radix_pos encoding)

theorem foldl_symbols (encoding : Encoding) (packet : UInt16) :
    (List.range encoding.symbolCount).foldl
      (fun spelled index => encoding.radix * spelled + encoding.symbol packet index) 0 =
        packet.toNat := by
  have isWord : packet.toNat < encoding.radix ^ encoding.symbolCount := by
    rw [radix_pow_symbolCount]
    exact packet.toNat_lt
  simp only [symbol_eq_digit]
  rw [foldl_digits isWord (Nat.le_refl _)]
  simp

theorem eq_of_symbols (encoding : Encoding)
    (agree : ∀ index < encoding.symbolCount,
      encoding.symbol packet index = encoding.symbol other index) : packet = other := by
  apply UInt16.toNat_inj.mp
  rw [← foldl_symbols encoding packet, ← foldl_symbols encoding other]
  apply List.foldl_ext
  intro spelled index inFrame
  rw [agree index (List.mem_range.mp inFrame)]

end Symbols

end Rotor.Encoding

import Mathlib.Data.Nat.Bitwise
import Rotor.Proofs.Wire.Decoding

/-!
# Loading a frame at a stride

A loader sends the symbols of a packet out one by one. For every slot it takes the leading symbol,
works out where its word goes, drops the word if that lies past the end of the buffer, and shifts
the packet on; the last slot gets the zero that leaves the line low. `Encoding.layOut` places the
whole frame at once and looks at the place of the last slot only. Both come to the same
(`Encoding.layOut_eq_loadSlots`): the places rise from slot to slot, so the last one fits a word
only if all of them do, and shifting brings the symbols of a packet to the front in their order.
-/

namespace Rotor.Encoding

variable {encoding : Encoding} {packet : UInt16} {stride slot count : Nat} {buffer : List UInt32}

section Slots

/-- The word for the leading symbol of a packet. -/
def leadingWord (encoding : Encoding) (packet : UInt16) : UInt32 :=
  match encoding with
  | bits => if packet &&& 0x8000 ≠ 0 then 14 else 7
  | nibbles => (24 : UInt32) + ((packet &&& 0xF000) >>> 12).toUInt32 * 3

/-- The packet once its leading symbol is shifted out. -/
def shiftOut (encoding : Encoding) (packet : UInt16) : UInt16 :=
  match encoding with
  | bits => packet <<< 1
  | nibbles => packet <<< 4

/-- Writes the word of one slot. Its place has to fit a 64-bit word, and a word whose place lies
past the end of the buffer is dropped. -/
def putSlot (stride slot : Nat) (word : UInt32) (buffer : List UInt32) :
    Except Fault (List UInt32) := do
  let place ← Fault.checkedMul UInt64.size slot stride
  return buffer.set place word

/-- Writes so many leading symbols of a packet, from a slot on, and a zero after them. -/
def putSymbols (encoding : Encoding) (stride slot : Nat) (packet : UInt16)
    (buffer : List UInt32) : Nat → Except Fault (List UInt32)
  | 0 => putSlot stride slot 0 buffer
  | count + 1 => do
      let written ← putSlot stride slot (encoding.leadingWord packet) buffer
      encoding.putSymbols stride (slot + 1) (encoding.shiftOut packet) written count

/-- Loads a frame slot by slot, where a stride of zero counts as one. -/
def loadSlots (encoding : Encoding) (packet : UInt16) (stride : Nat) (buffer : List UInt32) :
    Except Fault (Nat × List UInt32) := do
  let loaded ← encoding.putSymbols (max stride 1) 0 packet buffer encoding.symbolCount
  return (encoding.frameLength, loaded)

end Slots

section Shifting

theorem and_topBit_ne_zero_iff (packet : UInt16) :
    packet &&& 0x8000 ≠ 0 ↔ bits.symbol packet 0 = 1 := by
  have masked : (packet &&& 0x8000).toNat = (packet.toNat.testBit 15).toNat * 2 ^ 15 := by
    rw [UInt16.toNat_and]
    exact Nat.and_two_pow packet.toNat 15
  have topBit : bits.symbol packet 0 = (packet.toNat.testBit 15).toNat := by
    rw [Nat.toNat_testBit, ← Nat.shiftRight_eq_div_pow]
    rfl
  rw [ne_eq, ← UInt16.toNat_inj, masked, topBit]
  cases packet.toNat.testBit 15 <;> decide

theorem leadingWord_eq (encoding : Encoding) (packet : UInt16) :
    encoding.leadingWord packet = UInt32.ofNat (encoding.width (encoding.symbol packet 0)) := by
  have isSymbol := symbol_lt_radix encoding packet 0
  cases encoding with
  | bits =>
      by_cases isOne : packet &&& 0x8000 ≠ 0
      · simp [leadingWord, width, isOne, (and_topBit_ne_zero_iff packet).mp isOne]
      · have isZero : bits.symbol packet 0 = 0 := by
          rw [and_topBit_ne_zero_iff] at isOne
          simp only [radix] at isSymbol
          omega
        simp [leadingWord, width, isOne, isZero]
  | nibbles =>
      have masked : (packet.toNat &&& 0xF000) >>> 12 = nibbles.symbol packet 0 := by
        rw [Nat.shiftRight_and_distrib]
        exact Nat.and_two_pow_sub_one_eq_mod _ 4
      apply UInt32.toNat_inj.mp
      simp only [radix] at isSymbol
      simp [leadingWord, width, masked]
      omega

theorem toNat_shiftOut (encoding : Encoding) (packet : UInt16) :
    (encoding.shiftOut packet).toNat =
      encoding.radix * packet.toNat % encoding.radix ^ encoding.symbolCount := by
  cases encoding with
  | bits => simp [shiftOut, radix, symbolCount, Nat.shiftLeft_eq, Nat.mul_comm]
  | nibbles => simp [shiftOut, radix, symbolCount, Nat.shiftLeft_eq, Nat.mul_comm]

/-- What is left of a packet has its symbols one place further to the front. -/
theorem symbol_shiftOut {index : Nat} (inFrame : index + 1 < encoding.symbolCount) :
    encoding.symbol (encoding.shiftOut packet) index = encoding.symbol packet (index + 1) := by
  have place : encoding.symbolCount - 1 - index =
      encoding.symbolCount - 1 - (index + 1) + 1 := by omega
  rw [symbol_eq_digit, symbol_eq_digit, toNat_shiftOut, digit_mod_pow _ _ (by omega), place,
    Nat.pow_succ', Nat.mul_div_mul_left _ _ (radix_pos encoding)]

/-- The pulse widths of the leading symbols of a packet. -/
def leadingPulses (encoding : Encoding) (packet : UInt16) (count : Nat) : List UInt32 :=
  (List.range count).map fun index => UInt32.ofNat (encoding.width (encoding.symbol packet index))

theorem leadingPulses_succ (inFrame : count < encoding.symbolCount) :
    encoding.leadingPulses packet (count + 1) =
      encoding.leadingWord packet :: encoding.leadingPulses (encoding.shiftOut packet) count := by
  rw [leadingPulses, List.range_succ_eq_map, List.map_cons, List.map_map, ← leadingWord_eq]
  congr 1
  apply List.map_congr_left
  intro index inRange
  have isLeft := List.mem_range.mp inRange
  rw [Function.comp_apply, symbol_shiftOut (by omega)]

end Shifting

section Loaded

theorem putSlot_eq (stride slot : Nat) (word : UInt32) (buffer : List UInt32) :
    putSlot stride slot word buffer =
      if slot * stride < UInt64.size then .ok (buffer.set (slot * stride) word)
      else .error .productOverflow := by
  rw [putSlot, Fault.checkedMul]
  split <;> rfl

theorem putSymbols_eq (inFrame : count ≤ encoding.symbolCount) :
    encoding.putSymbols stride slot packet buffer count =
      if (slot + count) * stride < UInt64.size then
        .ok (place (encoding.leadingPulses packet count ++ [0]) (slot * stride) stride buffer)
      else .error .productOverflow := by
  induction count generalizing slot packet buffer with
  | zero => exact putSlot_eq stride slot 0 buffer
  | succ count ih =>
      have later : slot + 1 + count = slot + (count + 1) := by omega
      rw [putSymbols, putSlot_eq, leadingPulses_succ inFrame]
      by_cases fits : slot * stride < UInt64.size
      · rw [if_pos fits]
        change encoding.putSymbols stride (slot + 1) (encoding.shiftOut packet) _ count = _
        rw [ih (by omega), later, Nat.succ_mul]
        rfl
      · -- The first place that does not fit ends the load, and the last one fits no better.
        have further : slot * stride ≤ (slot + (count + 1)) * stride :=
          Nat.mul_le_mul_right stride (by omega)
        rw [if_neg fits, if_neg (by omega)]
        rfl

/-- Placing a frame at once is loading it slot by slot. -/
theorem layOut_eq_loadSlots (encoding : Encoding) (packet : UInt16) (stride : Nat)
    (buffer : List UInt32) :
    encoding.layOut packet stride buffer = encoding.loadSlots packet stride buffer := by
  rw [layOut, loadSlots, putSymbols_eq (Nat.le_refl _), Fault.checkedMul, Nat.zero_add,
    Nat.zero_mul]
  split <;> rfl

theorem layOut_of_fits (fits : encoding.symbolCount * max stride 1 < UInt64.size) :
    encoding.layOut packet stride buffer =
      .ok (encoding.frameLength, place (encoding.frame packet) 0 (max stride 1) buffer) := by
  rw [layOut, Fault.checkedMul_eq_ok_iff.mpr ⟨fits, rfl⟩]
  rfl

theorem layOut_eq_error_iff {fault : Fault} :
    encoding.layOut packet stride buffer = .error fault ↔
      UInt64.size ≤ encoding.symbolCount * max stride 1 ∧ fault = .productOverflow := by
  rw [← Fault.checkedMul_eq_error_iff, layOut]
  cases Fault.checkedMul UInt64.size encoding.symbolCount (max stride 1) with
  | error cause => simp [bind, Except.bind]
  | ok product => simp [bind, Except.bind, pure, Except.pure]

theorem getElem?_place_frame {index : Nat} (isWord : index < encoding.frameLength)
    (inBuffer : index * max stride 1 < buffer.length) :
    (place (encoding.frame packet) 0 (max stride 1) buffer)[index * max stride 1]? =
      (encoding.frame packet)[index]? := by
  have positive : 0 < max stride 1 := by omega
  rw [← length_frame encoding packet] at isWord
  have inside : 0 + max stride 1 * index < buffer.length := by
    rwa [Nat.zero_add, Nat.mul_comm]
  have placed := getElem?_place positive isWord inside
  rwa [Nat.zero_add, Nat.mul_comm] at placed

theorem getElem?_frame_symbolCount :
    (encoding.frame packet)[encoding.symbolCount]? = some 0 := by
  simp [frame]

end Loaded

/-- Loading a frame at any stride into any buffer, which is the same slot by slot. Where the place
of the last slot fits a 64-bit word, the pulses and the zero after them are written to the multiples
of the stride that lie in the buffer, and all other words stay; otherwise the load fails. -/
theorem layOut_at_any_stride (encoding : Encoding) (packet : UInt16) (stride : Nat)
    (buffer : List UInt32) :
    encoding.layOut packet stride buffer = encoding.loadSlots packet stride buffer ∧
    (encoding.symbolCount * max stride 1 < 2 ^ 64 →
      ∃ loaded : List UInt32,
        encoding.layOut packet stride buffer = .ok (encoding.frameLength, loaded) ∧
        loaded.length = buffer.length ∧
        (∀ index < encoding.symbolCount, index * max stride 1 < buffer.length →
          loaded[index * max stride 1]? =
            some (UInt32.ofNat (encoding.width (encoding.symbol packet index)))) ∧
        (encoding.symbolCount * max stride 1 < buffer.length →
          loaded[encoding.symbolCount * max stride 1]? = some 0) ∧
        ∀ place, (∀ index < encoding.frameLength, place ≠ index * max stride 1) →
          loaded[place]? = buffer[place]?) ∧
    ∀ fault, encoding.layOut packet stride buffer = .error fault ↔
      2 ^ 64 ≤ encoding.symbolCount * max stride 1 ∧ fault = .productOverflow := by
  refine ⟨layOut_eq_loadSlots encoding packet stride buffer, ?_, fun _ => layOut_eq_error_iff⟩
  intro fits
  refine ⟨_, layOut_of_fits fits, length_place _ _ _ _, ?_, ?_, ?_⟩
  · intro index isPulse inBuffer
    rw [getElem?_place_frame (Nat.lt_succ_of_lt isPulse) inBuffer, getElem?_frame_of_lt isPulse]
  · intro inBuffer
    rw [getElem?_place_frame (Nat.lt_succ_self _) inBuffer, getElem?_frame_symbolCount]
  · intro place apart
    apply getElem?_place_of_forall_ne
    intro index isWord
    rw [length_frame] at isWord
    rw [Nat.zero_add, Nat.mul_comm]
    exact apart index isWord

/-- Three of five words fall into a buffer of eight, and a stride for which the last place is the
first one past a 64-bit word fails on an empty buffer too. -/
theorem layOut_at_any_stride_of_short_buffer :
    nibbles.symbolCount * max 3 1 < 2 ^ 64 ∧
    (∃ loaded : List UInt32,
      nibbles.layOut 0xF03A 3 [9, 9, 9, 9, 9, 9, 9, 9] = .ok (5, loaded) ∧
      loaded[0]? = some 69 ∧ loaded[3]? = some 24 ∧ loaded[6]? = some 33 ∧
      loaded[7]? = some 9) ∧
    nibbles.layOut 0xF03A (2 ^ 62) [] = .error .productOverflow := by
  have fits : nibbles.symbolCount * max 3 1 < 2 ^ 64 := by decide
  rcases layOut_at_any_stride nibbles 0xF03A 3 [9, 9, 9, 9, 9, 9, 9, 9] with ⟨_, writes, _⟩
  rcases writes fits with ⟨loaded, done, _, pulses, _, others⟩
  rcases layOut_at_any_stride nibbles 0xF03A (2 ^ 62) [] with ⟨_, _, fails⟩
  refine ⟨fits, ⟨loaded, done, pulses 0 (by decide) (by decide), pulses 1 (by decide) (by decide),
    pulses 2 (by decide) (by decide), others 7 (by decide)⟩, ?_⟩
  exact (fails .productOverflow).mpr ⟨by decide, rfl⟩

end Rotor.Encoding

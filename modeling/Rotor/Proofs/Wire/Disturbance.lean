import Mathlib.Data.Nat.Bitwise
import Rotor.Proofs.Wire.Decoding

/-!
# A disturbed symbol

Whatever counter values a capture holds, its pulses spell some packet, and the symbols of that
packet are the symbols of the pulses. Captures that differ in the pulse of one symbol therefore
spell packets that differ in at most one symbol, and a symbol lies within one nibble. The nibbles of
a packet that is accepted cancel, so three of them determine the fourth: of all packets that differ
in one nibble only, at most one is accepted (`Encoding.eq_of_nibbleSum_eq`).
-/

namespace Rotor.Encoding

variable {encoding : Encoding} {packet other : UInt16}

section Nibbles

theorem toNat_nibbleSum (packet : UInt16) :
    (Packet.nibbleSum packet).toNat =
      nibbles.symbol packet 3 ^^^ nibbles.symbol packet 2 ^^^
        nibbles.symbol packet 1 ^^^ nibbles.symbol packet 0 := by
  have lowest (number : Nat) : number % 16 = number &&& 15 :=
    (Nat.and_two_pow_sub_one_eq_mod number 4).symm
  simp [Packet.nibbleSum, symbol, lowest, Nat.and_xor_distrib_right]

/-- Packets with the same sum that agree in all nibbles but one are the same. -/
theorem eq_of_nibbleSum_eq {place : Nat}
    (agree : ∀ index < nibbles.symbolCount, index ≠ place →
      nibbles.symbol packet index = nibbles.symbol other index)
    (sums : Packet.nibbleSum packet = Packet.nibbleSum other) : packet = other := by
  have folded := congrArg UInt16.toNat sums
  rw [toNat_nibbleSum, toNat_nibbleSum] at folded
  apply eq_of_symbols nibbles
  intro index isNibble
  by_cases beside : index = place
  · subst beside
    have first (apart : 0 ≠ index) := agree 0 (by decide) apart
    have second (apart : 1 ≠ index) := agree 1 (by decide) apart
    have third (apart : 2 ≠ index) := agree 2 (by decide) apart
    have fourth (apart : 3 ≠ index) := agree 3 (by decide) apart
    -- Whichever nibble it is, the other three cancel on both sides.
    match index, isNibble with
    | 0, _ => simpa [second, third, fourth, Nat.xor_right_inj] using folded
    | 1, _ => simpa [first, third, fourth, Nat.xor_right_inj, Nat.xor_left_inj] using folded
    | 2, _ => simpa [first, second, fourth, Nat.xor_right_inj, Nat.xor_left_inj] using folded
    | 3, _ => simpa [first, second, third, Nat.xor_left_inj] using folded
  · exact agree index isNibble beside

theorem nibble_eq_bits (packet : UInt16) {index : Nat} (isNibble : index < nibbles.symbolCount) :
    nibbles.symbol packet index =
      8 * bits.symbol packet (4 * index) + 4 * bits.symbol packet (4 * index + 1) +
        2 * bits.symbol packet (4 * index + 2) + bits.symbol packet (4 * index + 3) := by
  have places : index = 0 ∨ index = 1 ∨ index = 2 ∨ index = 3 := by
    simp only [symbolCount] at isNibble
    omega
  rcases places with rfl | rfl | rfl | rfl <;>
    simp only [symbol, Nat.shiftRight_eq_div_pow] <;> omega

/-- Packets that agree in all symbols but one agree in all nibbles but one. -/
theorem exists_nibble_of_symbols {place : Nat}
    (agree : ∀ index < encoding.symbolCount, index ≠ place →
      encoding.symbol packet index = encoding.symbol other index) :
    ∃ nibble, ∀ index < nibbles.symbolCount, index ≠ nibble →
      nibbles.symbol packet index = nibbles.symbol other index := by
  cases encoding with
  | nibbles => exact ⟨place, agree⟩
  | bits =>
      refine ⟨place / 4, ?_⟩
      intro index isNibble apart
      -- The symbol that differs is not one of the four bits of this nibble.
      have sameBit (offset : Nat) (within : offset < 4) :
          bits.symbol packet (4 * index + offset) = bits.symbol other (4 * index + offset) := by
        simp only [symbolCount] at isNibble
        apply agree
        · simp only [symbolCount]
          omega
        · omega
      have firstBit := sameBit 0 (by decide)
      rw [Nat.add_zero] at firstBit
      rw [nibble_eq_bits packet isNibble, nibble_eq_bits other isNibble, firstBit,
        sameBit 1 (by decide), sameBit 2 (by decide), sameBit 3 (by decide)]

end Nibbles

section Spelling

theorem symbolOfPulse_lt_radix (encoding : Encoding) (rise fall : UInt32) :
    encoding.symbolOfPulse rise fall < encoding.radix := by
  cases encoding with
  | bits =>
      simp only [symbolOfPulse, bitOfPulse, Encoding.radix]
      split <;> decide
  | nibbles =>
      simp only [symbolOfPulse, nibbleOfPulse, Encoding.radix]
      split <;> omega

/-- A packet carries the symbols of the pulses that spell it. -/
theorem symbol_packetOfPulses (rises falls : Nat → UInt32) {index : Nat}
    (isSymbol : index < encoding.symbolCount) :
    encoding.symbol (encoding.packetOfPulses
      ((List.range encoding.symbolCount).map fun index => (rises index, falls index))) index =
        encoding.symbolOfPulse (rises index) (falls index) := by
  have small (index : Nat) (_ : index < encoding.symbolCount) :=
    symbolOfPulse_lt_radix encoding (rises index) (falls index)
  have fits := foldl_range_lt small
  rw [radix_pow_symbolCount] at fits
  rw [symbol_eq_digit, packetOfPulses, List.foldl_map, UInt16.toNat_ofNat',
    Nat.mod_eq_of_lt fits]
  exact digit_foldl_range small isSymbol

theorem pairs_take (capture : List UInt32) {count : Nat} (enough : 2 * count ≤ capture.length) :
    pairs (capture.take (2 * count)) = (List.range count).map fun index =>
      (capture.getD (2 * index) 0, capture.getD (2 * index + 1) 0) := by
  induction count generalizing capture with
  | zero => rfl
  | succ count ih =>
      match capture, enough with
      | rise :: fall :: rest, enough =>
        have later := ih rest (by simp at enough; omega)
        rw [List.range_succ_eq_map]
        simpa [Nat.mul_succ, pairs, Function.comp_def] using later

/-- The packet that a complete capture spells. -/
def spelled (encoding : Encoding) (capture : List UInt32) : UInt16 :=
  encoding.packetOfPulses (pairs (capture.take encoding.captureLength))

theorem symbol_spelled {capture : List UInt32} (complete : encoding.captureLength ≤ capture.length)
    {index : Nat} (isSymbol : index < encoding.symbolCount) :
    encoding.symbol (encoding.spelled capture) index =
      encoding.symbolOfPulse (capture.getD (2 * index) 0) (capture.getD (2 * index + 1) 0) := by
  rw [spelled, captureLength, pairs_take capture complete]
  exact symbol_packetOfPulses _ _ isSymbol

theorem decode_eq_some_iff {capture : List UInt32} {payload : UInt16} :
    encoding.decode capture = some payload ↔
      encoding.captureLength ≤ capture.length ∧
        Packet.nibbleSum (encoding.spelled capture) = 0 ∧
        encoding.spelled capture >>> 4 = payload := by
  by_cases complete : encoding.captureLength ≤ capture.length
  · have long : ¬capture.length < encoding.captureLength := Nat.not_lt.mpr complete
    simp [decode, spelled, long, complete]
  · simp [decode_eq_none_of_short encoding (Nat.lt_of_not_le complete), complete]

end Spelling

section Undisturbed

theorem edges_eq_edgesOf (encoding : Encoding) (packet : UInt16) (phase : Nat) :
    encoding.edges packet phase = encoding.edgesOf (fun _ => phase % encoding.period)
      (fun index => encoding.width (encoding.symbol packet index)) := by
  rw [edges, pulses, List.flatMap_map, edgesOf]
  apply List.flatMap_congr
  intro index _
  rw [toNat_pulse (symbol_lt_radix encoding packet index), Nat.mod_add_mod]

theorem decode_edges (encoding : Encoding) (packet : UInt16) (phase : Nat) :
    encoding.decode (encoding.edges packet phase) =
      if Packet.nibbleSum packet = 0 then some (packet >>> 4) else none := by
  have inSlot : phase % encoding.period < encoding.period := by
    apply Nat.mod_lt
    cases encoding <;> decide
  have undisturbed := decode_edgesOf (fun _ _ => inSlot)
    (fun index _ => tolerates_width (symbol_lt_radix encoding packet index)) []
  rwa [List.append_nil, ← edges_eq_edgesOf] at undisturbed

end Undisturbed

/-- Captures that agree outside the two counter values of one symbol. -/
def DifferInSymbol (symbol : Nat) (capture other : List UInt32) : Prop :=
  ∀ index, index / 2 ≠ symbol → capture[index]? = other[index]?

theorem differInSymbol_set (capture : List UInt32) (symbol : Nat) (rise fall : UInt32) :
    DifferInSymbol symbol capture
      ((capture.set (2 * symbol) rise).set (2 * symbol + 1) fall) := by
  intro index apart
  rw [List.getElem?_set_ne (by omega), List.getElem?_set_ne (by omega)]

theorem spelled_eq_of_differInSymbol {symbol : Nat} {capture changed : List UInt32}
    (differ : DifferInSymbol symbol capture changed)
    (complete : encoding.captureLength ≤ capture.length)
    (changedComplete : encoding.captureLength ≤ changed.length)
    (sums : Packet.nibbleSum (encoding.spelled capture) =
      Packet.nibbleSum (encoding.spelled changed)) :
    encoding.spelled capture = encoding.spelled changed := by
  have agree : ∀ index < encoding.symbolCount, index ≠ symbol →
      encoding.symbol (encoding.spelled capture) index =
        encoding.symbol (encoding.spelled changed) index := by
    intro index isSymbol apart
    have rises := differ (2 * index) (by omega)
    have falls := differ (2 * index + 1) (by omega)
    rw [symbol_spelled complete isSymbol, symbol_spelled changedComplete isSymbol]
    simp only [List.getD_eq_getElem?_getD, rises, falls]
  rcases exists_nibble_of_symbols agree with ⟨nibble, agreeInNibbles⟩
  exact eq_of_nibbleSum_eq agreeInNibbles sums

/-- Decoding of arbitrary captures. Only complete captures are decoded, to twelve bits, and by their
first edges alone; each payload of twelve bits comes back from the undisturbed edges of its packet;
and two captures that differ in one symbol only have the same payload if both are decoded. -/
theorem decode_withstands_disturbed_symbol (encoding : Encoding) :
    (∀ (capture : List UInt32) (payload : UInt16), encoding.decode capture = some payload →
      encoding.captureLength ≤ capture.length ∧ payload.toNat < 4096) ∧
    (∀ capture other : List UInt32,
      capture.take encoding.captureLength = other.take encoding.captureLength →
      encoding.decode capture = encoding.decode other) ∧
    (∀ (payload : UInt16) (phase : Nat), payload.toNat < 4096 →
      encoding.decode
        (encoding.edges ((payload <<< 4) ||| Packet.checksum payload false) phase) =
          some payload) ∧
    ∀ (symbol : Nat) (capture changed : List UInt32) (payload changedPayload : UInt16),
      DifferInSymbol symbol capture changed →
      encoding.decode capture = some payload →
      encoding.decode changed = some changedPayload →
      changedPayload = payload := by
  refine ⟨?_, ?_, ?_, ?_⟩
  · intro capture payload decoded
    rcases decode_eq_some_iff.mp decoded with ⟨complete, _, rfl⟩
    refine ⟨complete, ?_⟩
    have isWord := (encoding.spelled capture).toNat_lt
    simp [Nat.shiftRight_eq_div_pow]
    omega
  · intro capture other same
    exact decode_congr encoding same
  · intro payload phase twelveBits
    have valid : Packet.nibbleSum ((payload <<< 4) ||| Packet.checksum payload false) = 0 := by
      rw [Packet.nibbleSum_eq_zero_iff, Packet.shiftRight_joined twelveBits,
        Packet.and_joined twelveBits]
    rw [decode_edges, if_pos valid, Packet.shiftRight_joined twelveBits]
  · intro symbol capture changed payload changedPayload differ decoded changedDecoded
    rcases decode_eq_some_iff.mp decoded with ⟨complete, sum, rfl⟩
    rcases decode_eq_some_iff.mp changedDecoded with ⟨changedComplete, changedSum, rfl⟩
    rw [spelled_eq_of_differInSymbol differ complete changedComplete (sum.trans changedSum.symm)]

/-- A reply with counter values past the slot, of which one pulse is replaced by one that lasts for
many slots and yet reads as the same nibble. -/
theorem decode_withstands_disturbed_symbol_of_overlong_pulse :
    DifferInSymbol 2 [5, 32, 4294967290, 24, 90, 27, 7, 31, 3]
      [5, 32, 4294967290, 24, 4000000000, 4000000994, 7, 31, 3] ∧
    nibbles.decode [5, 32, 4294967290, 24, 90, 27, 7, 31, 3] = some 0x123 ∧
    nibbles.captureLength ≤ [5, 32, 4294967290, 24, 90, 27, 7, 31, 3].length ∧
    (0x123 : UInt16).toNat < 4096 ∧
    nibbles.decode [5, 32, 4294967290, 24, 90, 27, 7, 31, 3] =
      nibbles.decode [5, 32, 4294967290, 24, 90, 27, 7, 31] ∧
    nibbles.decode
      (nibbles.edges (((0x123 : UInt16) <<< 4) ||| Packet.checksum 0x123 false) 4294967295) = some 0x123 ∧
    (nibbles.decode [5, 32, 4294967290, 24, 4000000000, 4000000994, 7, 31, 3]).isSome ∧
    ∀ payload, nibbles.decode [5, 32, 4294967290, 24, 4000000000, 4000000994, 7, 31, 3] =
      some payload → payload = 0x123 := by
  have differ := differInSymbol_set [5, 32, 4294967290, 24, 90, 27, 7, 31, 3] 2
    4000000000 4000000994
  have decoded : nibbles.decode [5, 32, 4294967290, 24, 90, 27, 7, 31, 3] = some 0x123 := by decide
  rcases decode_withstands_disturbed_symbol nibbles with ⟨bounds, firstEdges, comesBack, same⟩
  rcases bounds _ _ decoded with ⟨complete, twelveBits⟩
  refine ⟨differ, decoded, complete, twelveBits, firstEdges _ _ (by decide),
    comesBack _ _ twelveBits, by decide, ?_⟩
  intro payload changedDecoded
  exact same 2 _ _ _ _ differ decoded changedDecoded

end Rotor.Encoding

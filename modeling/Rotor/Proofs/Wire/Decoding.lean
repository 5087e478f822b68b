import Rotor.Proofs.Wire.Digits
import Rotor.Proofs.Wire.Lanes
import Rotor.Wire.Packet

/-!
# Decoding what was captured

On the wire every pulse has a phase of its own, and its width is disturbed a little. A pulse reads
as its symbol as long as its width is one that `Encoding.Tolerates` allows, also where the counter
starts anew within the pulse. The symbols are the digits of the packet, so a capture of tolerated
pulses spells the packet again, and its payload is given exactly when the checksum holds.
-/

namespace Rotor

namespace Packet

theorem nibbleSum_eq (packet : UInt16) :
    nibbleSum packet = checksum (packet >>> 4) false ^^^ (packet &&& 0xF) := by
  apply UInt16.toBitVec_inj.mp
  ext place inWord
  cases bit : packet.toBitVec[place] <;> cases mask : (15#16)[place] <;>
    simp [nibbleSum, checksum, bit, mask]

/-- The nibbles of a packet cancel exactly when it ends in its own plain checksum. -/
theorem nibbleSum_eq_zero_iff (packet : UInt16) :
    nibbleSum packet = 0 ↔ checksum (packet >>> 4) false = packet &&& 0xF := by
  rw [nibbleSum_eq, UInt16.xor_eq_zero_iff]

section Joined

variable {data : UInt16}

theorem toNat_checksum_lt (data : UInt16) (inverted : Bool) :
    (checksum data inverted).toNat < 2 ^ 4 := by
  rw [checksum, UInt16.toNat_and]
  exact Nat.and_lt_two_pow _ (by decide)

/-- A packet is twelve bits of data followed by the checksum nibble. -/
theorem toNat_joined (twelveBits : data.toNat < 2 ^ 12) (inverted : Bool) :
    ((data <<< 4) ||| checksum data inverted).toNat =
      2 ^ 4 * data.toNat + (checksum data inverted).toNat := by
  have shifted : (data <<< 4).toNat = 2 ^ 4 * data.toNat := by
    simp [Nat.shiftLeft_eq]
    omega
  rw [UInt16.toNat_or, shifted, Nat.two_pow_add_eq_or_of_lt (toNat_checksum_lt _ _)]

theorem shiftRight_joined (twelveBits : data.toNat < 2 ^ 12) (inverted : Bool) :
    ((data <<< 4) ||| checksum data inverted) >>> 4 = data := by
  have isNibble := toNat_checksum_lt data inverted
  apply UInt16.toNat_inj.mp
  simp [toNat_joined twelveBits, Nat.shiftRight_eq_div_pow]
  omega

theorem and_joined (twelveBits : data.toNat < 2 ^ 12) (inverted : Bool) :
    ((data <<< 4) ||| checksum data inverted) &&& 0xF = checksum data inverted := by
  have isNibble := toNat_checksum_lt data inverted
  have lowest (number : Nat) : number &&& 15 = number % 2 ^ 4 :=
    Nat.and_two_pow_sub_one_eq_mod number 4
  apply UInt16.toNat_inj.mp
  simp [toNat_joined twelveBits, lowest]
  omega

end Joined

end Packet

namespace Encoding

variable {encoding : Encoding} {packet : UInt16} {rise width : Nat → Nat}

/-- The widths that a pulse may have on the wire and still carry its symbol. -/
def Tolerates (encoding : Encoding) (symbol width : Nat) : Prop :=
  match encoding with
  | bits => if symbol = 0 then 1 ≤ width ∧ width ≤ 10 else 11 ≤ width ∧ width ≤ 19
  | nibbles => 24 + 3 * symbol ≤ width + 1 ∧ width ≤ 24 + 3 * symbol + 1

instance (encoding : Encoding) (symbol width : Nat) :
    Decidable (encoding.Tolerates symbol width) :=
  match encoding with
  | bits => inferInstanceAs (Decidable
      (if symbol = 0 then 1 ≤ width ∧ width ≤ 10 else 11 ≤ width ∧ width ≤ 19))
  | nibbles => inferInstanceAs (Decidable (_ ∧ _))

/-- The edges of the pulses of one packet. Every pulse rises at a count of its own and falls its
width later, as the counter shows it that starts anew with every slot. -/
def edgesOf (encoding : Encoding) (rise width : Nat → Nat) : List UInt32 :=
  (List.range encoding.symbolCount).flatMap fun index =>
    [UInt32.ofNat (rise index), UInt32.ofNat ((rise index + width index) % encoding.period)]

theorem length_edgesOf (encoding : Encoding) (rise width : Nat → Nat) :
    (encoding.edgesOf rise width).length = encoding.captureLength := by
  simp [edgesOf, captureLength, List.length_flatMap, Nat.mul_comm]

section Pulses

theorem toInt_count {count : Nat} (small : count < 2 ^ 31) :
    (BitVec.ofNat 32 count).toInt = count := by
  have toNat : (BitVec.ofNat 32 count).toNat = count := by
    rw [BitVec.toNat_ofNat]
    omega
  rw [BitVec.toInt_eq_toNat_of_lt (by omega), toNat]

theorem signedGap_ofNat {rise fall : Nat} (riseSmall : rise < 2 ^ 31) (fallSmall : fall < 2 ^ 31) :
    signedGap (.ofNat rise) (.ofNat fall) = fall - rise := by
  simp only [signedGap, UInt32.toBitVec_sub, UInt32.toBitVec_ofNat', BitVec.toInt_sub,
    toInt_count riseSmall, toInt_count fallSmall]
  rw [Int.bmod_eq_of_le] <;> omega

theorem toNat_nibbleGap {rise fall : Nat} (riseInSlot : rise < 96) (fallInSlot : fall < 96) :
    (UInt32.ofNat fall + 96 - UInt32.ofNat rise).toNat = fall + 96 - rise := by
  simp only [UInt32.toNat_sub, UInt32.toNat_add, UInt32.toNat_ofNat', UInt32.reduceToNat]
  omega

theorem bitOfPulse_of_tolerates {symbol rise width : Nat} (isBit : symbol < 2) (inSlot : rise < 20)
    (tolerated : bits.Tolerates symbol width) :
    bitOfPulse (.ofNat rise) (.ofNat ((rise + width) % 20)) = symbol := by
  have riseSmall : rise < 2 ^ 31 := by omega
  have fallSmall : (rise + width) % 20 < 2 ^ 31 := by omega
  have gap := signedGap_ofNat riseSmall fallSmall
  simp only [bitOfPulse, gap]
  -- A gap is the width, or twenty less where the counter started anew within the pulse.
  simp only [Tolerates] at tolerated
  split at tolerated <;> split <;> omega

theorem nibbleOfPulse_of_tolerates {symbol rise width : Nat} (isNibble : symbol < 16)
    (inSlot : rise < 96) (tolerated : nibbles.Tolerates symbol width) :
    nibbleOfPulse (.ofNat rise) (.ofNat ((rise + width) % 96)) = symbol := by
  have fallInSlot : (rise + width) % 96 < 96 := Nat.mod_lt _ (by decide)
  simp only [Tolerates] at tolerated
  have measured : ((rise + width) % 96 + 96 - rise) % 96 = width := by omega
  simp only [nibbleOfPulse, toNat_nibbleGap inSlot fallInSlot, measured]
  split <;> omega

theorem symbolOfPulse_of_tolerates {symbol rise width : Nat} (isSymbol : symbol < encoding.radix)
    (inSlot : rise < encoding.period) (tolerated : encoding.Tolerates symbol width) :
    encoding.symbolOfPulse (.ofNat rise) (.ofNat ((rise + width) % encoding.period)) = symbol := by
  cases encoding with
  | bits => exact bitOfPulse_of_tolerates isSymbol inSlot tolerated
  | nibbles => exact nibbleOfPulse_of_tolerates isSymbol inSlot tolerated

theorem pairs_flatMap (indices : List Nat) (rises falls : Nat → UInt32) :
    pairs (indices.flatMap fun index => [rises index, falls index]) =
      indices.map fun index => (rises index, falls index) := by
  induction indices with
  | nil => rfl
  | cons index rest ih => simpa [pairs] using ih

theorem packetOfPulses_of_symbols {rises falls : Nat → UInt32}
    (symbols : ∀ index < encoding.symbolCount,
      encoding.symbolOfPulse (rises index) (falls index) = encoding.symbol packet index) :
    encoding.packetOfPulses
      ((List.range encoding.symbolCount).map fun index => (rises index, falls index)) = packet := by
  have spelled : (List.range encoding.symbolCount).foldl
      (fun spelled index =>
        encoding.radix * spelled + encoding.symbolOfPulse (rises index) (falls index)) 0 =
        packet.toNat := by
    rw [← foldl_symbols encoding packet]
    apply List.foldl_ext
    intro spelled index inFrame
    rw [symbols index (List.mem_range.mp inFrame)]
  rw [packetOfPulses, List.foldl_map, spelled, UInt16.ofNat_toNat]

/-- A capture that begins with tolerated pulses of a packet is decoded to its payload, or to nothing
where the checksum fails. -/
theorem decode_edgesOf
    (inSlot : ∀ index < encoding.symbolCount, rise index < encoding.period)
    (tolerated : ∀ index < encoding.symbolCount,
      encoding.Tolerates (encoding.symbol packet index) (width index))
    (rest : List UInt32) :
    encoding.decode (encoding.edgesOf rise width ++ rest) =
      if Packet.nibbleSum packet = 0 then some (packet >>> 4) else none := by
  have length := length_edgesOf encoding rise width
  have complete : ¬(encoding.edgesOf rise width ++ rest).length < encoding.captureLength := by
    rw [List.length_append, length]
    omega
  have spelled : encoding.packetOfPulses (pairs (encoding.edgesOf rise width)) = packet := by
    rw [edgesOf, pairs_flatMap]
    apply packetOfPulses_of_symbols
    intro index inFrame
    exact symbolOfPulse_of_tolerates (symbol_lt_radix encoding packet index)
      (inSlot index inFrame) (tolerated index inFrame)
  rw [decode, if_neg complete, List.take_left' length, spelled]

end Pulses

section Loaded

theorem tolerates_width {symbol : Nat} (isSymbol : symbol < encoding.radix) :
    encoding.Tolerates symbol (encoding.width symbol) := by
  cases encoding with
  | bits =>
      simp only [radix] at isSymbol
      simp only [Tolerates, Encoding.width]
      split <;> omega
  | nibbles =>
      simp only [Tolerates, Encoding.width]
      omega

theorem toNat_pulse {symbol : Nat} (isSymbol : symbol < encoding.radix) :
    (UInt32.ofNat (encoding.width symbol)).toNat = encoding.width symbol := by
  rw [UInt32.toNat_ofNat']
  apply Nat.mod_eq_of_lt
  cases encoding <;> simp only [radix, Encoding.width] at isSymbol ⊢ <;> omega

theorem layOut_one (encoding : Encoding) (packet : UInt16) (buffer : List UInt32) :
    encoding.layOut packet 1 buffer =
      .ok (encoding.frameLength, place (encoding.frame packet) 0 1 buffer) := by
  cases encoding <;> rfl

theorem getElem?_frame_of_lt {index : Nat} (isPulse : index < encoding.symbolCount) :
    (encoding.frame packet)[index]? =
      some (UInt32.ofNat (encoding.width (encoding.symbol packet index))) := by
  simp [frame, pulses, List.getElem?_append_left, isPulse]

theorem getD_place_one {index : Nat} (isPulse : index < encoding.symbolCount)
    {buffer : List UInt32} (inBuffer : index < buffer.length) :
    (place (encoding.frame packet) 0 1 buffer).getD index 0 =
      UInt32.ofNat (encoding.width (encoding.symbol packet index)) := by
  have isWord : index < (encoding.frame packet).length := by
    rw [length_frame, frameLength]
    omega
  have inside : 0 + 1 * index < buffer.length := by
    rwa [Nat.zero_add, Nat.one_mul]
  have placed := getElem?_place Nat.one_pos isWord inside
  rw [Nat.zero_add, Nat.one_mul] at placed
  rw [List.getD_eq_getElem?_getD, placed, getElem?_frame_of_lt isPulse]
  rfl

/-- Every word that is laid out for a pulse is a width that its symbol tolerates. -/
theorem tolerates_place_one {index : Nat} (isPulse : index < encoding.symbolCount)
    {buffer : List UInt32} (inBuffer : index < buffer.length) :
    encoding.Tolerates (encoding.symbol packet index)
      ((place (encoding.frame packet) 0 1 buffer).getD index 0).toNat := by
  have isSymbol := symbol_lt_radix encoding packet index
  rw [getD_place_one isPulse inBuffer, toNat_pulse isSymbol]
  exact tolerates_width isSymbol

end Loaded

/-- Decoding inverts the wire: whatever the phase of every pulse and whatever follows, tolerated
pulses of a packet give its payload exactly when its nibbles cancel. The words that are laid out for
a packet are tolerated, so a packet with its plain checksum is read back from them. -/
theorem decode_inverts_wire (encoding : Encoding) (packet : UInt16) :
    (∀ (rise width : Nat → Nat) (rest : List UInt32),
      (∀ index < encoding.symbolCount, rise index < encoding.period) →
      (∀ index < encoding.symbolCount,
        encoding.Tolerates (encoding.symbol packet index) (width index)) →
      encoding.decode (encoding.edgesOf rise width ++ rest) =
        if Packet.nibbleSum packet = 0 then some (packet >>> 4) else none) ∧
    ∀ buffer : List UInt32, ∃ loaded : List UInt32,
      encoding.layOut packet 1 buffer = .ok (encoding.frameLength, loaded) ∧
      (∀ index < encoding.symbolCount, index < buffer.length →
        encoding.Tolerates (encoding.symbol packet index) (loaded.getD index 0).toNat) ∧
      (encoding.symbolCount ≤ buffer.length →
        Packet.checksum (packet >>> 4) false = packet &&& 0xF →
        ∀ (rise : Nat → Nat) (rest : List UInt32),
          (∀ index < encoding.symbolCount, rise index < encoding.period) →
          encoding.decode
            (encoding.edgesOf rise (fun index => (loaded.getD index 0).toNat) ++ rest) =
              some (packet >>> 4)) := by
  constructor
  · intro rise width rest inSlot tolerated
    exact decode_edgesOf inSlot tolerated rest
  · intro buffer
    refine ⟨_, layOut_one encoding packet buffer, ?_, ?_⟩
    · intro index isPulse inBuffer
      exact tolerates_place_one isPulse inBuffer
    · intro room valid rise rest inSlot
      have tolerated : ∀ index < encoding.symbolCount, encoding.Tolerates
          (encoding.symbol packet index)
            ((place (encoding.frame packet) 0 1 buffer).getD index 0).toNat := by
        intro index isPulse
        exact tolerates_place_one isPulse (by omega)
      rw [decode_edgesOf inSlot tolerated,
        if_pos ((Packet.nibbleSum_eq_zero_iff packet).mpr valid)]

/-- A reply whose pulses rise at all counts of the slot, with widths up to the limits. -/
theorem decode_inverts_wire_of_disturbed_reply :
    (∀ index < bits.symbolCount, 19 - index < bits.period) ∧
    (∀ index < bits.symbolCount, bits.Tolerates (bits.symbol 0x1230 index)
      (if bits.symbol 0x1230 index = 0 then 10 - index % 10 else 11 + index % 9)) ∧
    bits.decode (bits.edgesOf (fun index => 19 - index) (fun index =>
      if bits.symbol 0x1230 index = 0 then 10 - index % 10 else 11 + index % 9) ++ [3, 9]) =
        some 0x123 := by
  have inSlot : ∀ index < bits.symbolCount, 19 - index < bits.period := by decide
  have tolerated : ∀ index < bits.symbolCount, bits.Tolerates (bits.symbol 0x1230 index)
      (if bits.symbol 0x1230 index = 0 then 10 - index % 10 else 11 + index % 9) := by decide
  exact ⟨inSlot, tolerated, (decode_inverts_wire bits 0x1230).1 _ _ [3, 9] inSlot tolerated⟩

end Encoding

end Rotor

import Rotor.Wire.Packet
import Rotor.Wire.Protocol

/-!
# Reading a reply

A capture is a list of counter values, a rise and a fall for each pulse. `Encoding.decode` measures
every pulse, puts the symbols together to a packet, and gives its twelve bits of payload when the
checksum holds.
-/

namespace Rotor.Encoding

/-- The pulses of a capture, each with its rise and its fall. An odd edge at the end is left out. -/
def pairs : List UInt32 → List (UInt32 × UInt32)
  | rise :: fall :: rest => (rise, fall) :: pairs rest
  | _ => []

/-- The time from rise to fall as a signed number, negative where the counter wrapped between. -/
def signedGap (rise fall : UInt32) : Int :=
  (fall - rise).toBitVec.toInt

/-- The bit that a pulse carries: one for a long pulse, also where the counter wrapped within it. -/
def bitOfPulse (rise fall : UInt32) : Nat :=
  let gap := signedGap rise fall
  if 11 ≤ gap ∨ (-9 ≤ gap ∧ gap ≤ 0) then 1 else 0

/-- The nibble that a pulse carries, from its width within one slot rounded to the nearest step. -/
def nibbleOfPulse (rise fall : UInt32) : Nat :=
  let width := (fall + 96 - rise).toNat % 96
  if width < 24 then 0 else (width - 24 + 1) / 3 % 16

/-- The symbol that a pulse carries. -/
def symbolOfPulse (encoding : Encoding) (rise fall : UInt32) : Nat :=
  match encoding with
  | bits => bitOfPulse rise fall
  | nibbles => nibbleOfPulse rise fall

/-- The number of different symbols. -/
def radix : Encoding → Nat
  | bits => 2
  | nibbles => 16

/-- The packet that a list of pulses spells, most significant symbol first. -/
def packetOfPulses (encoding : Encoding) (pulses : List (UInt32 × UInt32)) : UInt16 :=
  UInt16.ofNat <| pulses.foldl
    (fun packet pulse => encoding.radix * packet + encoding.symbolOfPulse pulse.1 pulse.2) 0

/-- The payload of a captured reply: none where the capture is too short or its checksum fails.
Edges after a complete reply do not count. -/
def decode (encoding : Encoding) (capture : List UInt32) : Option UInt16 :=
  if capture.length < encoding.captureLength then
    none
  else
    let packet := encoding.packetOfPulses (pairs (capture.take encoding.captureLength))
    if Packet.nibbleSum packet = 0 then some (packet >>> 4) else none

theorem decode_eq_none_of_short (encoding : Encoding) {capture : List UInt32}
    (short : capture.length < encoding.captureLength) : encoding.decode capture = none := by
  simp [decode, short]

theorem decode_take (encoding : Encoding) (capture : List UInt32) :
    encoding.decode (capture.take encoding.captureLength) = encoding.decode capture := by
  by_cases short : capture.length < encoding.captureLength
  · rw [decode_eq_none_of_short encoding short, decode_eq_none_of_short]
    simp; omega
  · have complete : min encoding.captureLength capture.length = encoding.captureLength := by omega
    simp [decode, List.length_take, List.take_take, complete, short]

theorem decode_congr (encoding : Encoding) {capture other : List UInt32}
    (same : capture.take encoding.captureLength = other.take encoding.captureLength) :
    encoding.decode capture = encoding.decode other := by
  rw [← decode_take encoding capture, same, decode_take]

end Rotor.Encoding

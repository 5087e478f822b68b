/-!
# Packets

A packet is a 16-bit word: eleven bits of value, a bit that asks for telemetry, and a checksum
nibble. A motor controller answers with a packet of the same shape, twelve bits of payload and the
checksum nibble.
-/

namespace Rotor.Packet

/-- The exclusive or of the three low nibbles of `data`, complemented on an inverted link.

A motor controller knows a bidirectional link by the inverted checksum. -/
def checksum (data : UInt16) (inverted : Bool) : UInt16 :=
  let folded := data ^^^ (data >>> 4) ^^^ (data >>> 8)
  (if inverted then ~~~folded else folded) &&& 0xF

/-- The packet for a value, of which the low eleven bits count. -/
def make (value : UInt16) (asksTelemetry inverted : Bool) : UInt16 :=
  let data := ((value &&& 0x7FF) <<< 1) ||| (if asksTelemetry then 1 else 0)
  (data <<< 4) ||| checksum data inverted

/-- The exclusive or of the four nibbles of a packet, zero exactly when its plain checksum holds. -/
def nibbleSum (packet : UInt16) : UInt16 :=
  (packet ^^^ (packet >>> 4) ^^^ (packet >>> 8) ^^^ (packet >>> 12)) &&& 0xF

/-- The packet that answers with `payload`, its checksum disturbed by `flips`. -/
def reply (payload flips : UInt16) : UInt16 :=
  (payload <<< 4) ||| (checksum payload false ^^^ flips)

end Rotor.Packet

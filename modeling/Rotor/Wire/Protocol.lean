/-!
# Motor protocols

The variants of the motor link: how fast the timer ticks, and how a packet is cut into pulses. The
DShot family sends one bit in each pulse, ProShot one nibble.
-/

namespace Rotor

/-- What one pulse on the wire carries. -/
inductive Encoding
  /-- One bit per pulse, sixteen pulses per packet. -/
  | bits
  /-- One nibble per pulse, four pulses per packet. -/
  | nibbles
  deriving DecidableEq, Repr, Inhabited

namespace Encoding

/-- The length of one pulse slot in timer ticks. -/
def period : Encoding → Nat
  | bits => 20
  | nibbles => 96

/-- The number of pulses that carry one packet. -/
def symbolCount : Encoding → Nat
  | bits => 16
  | nibbles => 4

/-- The number of words in a transmitted frame: the pulses, and a zero that leaves the line low. -/
def frameLength (encoding : Encoding) : Nat :=
  encoding.symbolCount + 1

/-- The number of edges in a complete reply: each pulse rises and falls. -/
def captureLength (encoding : Encoding) : Nat :=
  2 * encoding.symbolCount

end Encoding

/-- The protocols that the link speaks. -/
inductive Protocol
  | dshot150
  | dshot300
  | dshot600
  | dshot1200
  | proshot1000
  deriving DecidableEq, Repr, Inhabited

namespace Protocol

/-- The timer rate in ticks per second. -/
def tickRate : Protocol → Nat
  | dshot150 => 3000000
  | dshot300 => 6000000
  | dshot600 => 12000000
  | dshot1200 => 24000000
  | proshot1000 => 24000000

/-- The way a protocol cuts a packet into pulses. -/
def encoding : Protocol → Encoding
  | proshot1000 => .nibbles
  | _ => .bits

/-- The number that stands for a protocol in stored settings. -/
def code : Protocol → UInt8
  | dshot150 => 0
  | dshot300 => 1
  | dshot600 => 2
  | dshot1200 => 3
  | proshot1000 => 4

/-- The protocol that a number stands for. -/
def ofCode? : UInt8 → Option Protocol
  | 0 => some dshot150
  | 1 => some dshot300
  | 2 => some dshot600
  | 3 => some dshot1200
  | 4 => some proshot1000
  | _ => none

@[simp]
theorem ofCode?_code (protocol : Protocol) : ofCode? protocol.code = some protocol := by
  cases protocol <;> rfl

end Protocol

end Rotor

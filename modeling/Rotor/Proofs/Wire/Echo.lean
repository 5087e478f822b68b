import Rotor.Proofs.Wire.Decoding

/-!
# The echo of a transmission

On a wire that serves both ways, a link may capture what it sends itself. It can tell such an echo
from a reply: motors answer with the plain checksum, while a link that expects answers sends the
inverted one. `Packet.nibbleSum_make_inverted` says that the nibbles of such a packet never cancel,
and `Encoding.decode_echo` that no capture of its pulses is decoded, however they lie in their slots
and though their widths are off by what the decoder tolerates.
-/

namespace Rotor

namespace Packet

/-- What a packet carries beside its checksum: the value and the bit that asks for telemetry. -/
def content (value : UInt16) (asksTelemetry : Bool) : UInt16 :=
  ((value &&& 0x7FF) <<< 1) ||| (if asksTelemetry then 1 else 0)

variable (value : UInt16) (asksTelemetry inverted : Bool)

theorem toNat_content_lt : (content value asksTelemetry).toNat < 2 ^ 12 := by
  have masked : value.toNat &&& 0x7FF < 2 ^ 11 := Nat.and_lt_two_pow _ (by decide)
  simp only [content, UInt16.toNat_or, UInt16.toNat_shiftLeft, UInt16.toNat_and]
  apply Nat.or_lt_two_pow
  · simp [Nat.shiftLeft_eq]
    omega
  · cases asksTelemetry <;> decide

theorem shiftRight_make :
    make value asksTelemetry inverted >>> 4 = content value asksTelemetry :=
  shiftRight_joined (toNat_content_lt value asksTelemetry) inverted

theorem and_make : make value asksTelemetry inverted &&& 0xF =
    checksum (content value asksTelemetry) inverted :=
  and_joined (toNat_content_lt value asksTelemetry) inverted

theorem checksum_inverted (data : UInt16) : checksum data true = checksum data false ^^^ 0xF := by
  apply UInt16.toBitVec_inj.mp
  ext place inWord
  cases mask : (15#16)[place] <;> simp [checksum, mask]

/-- Whatever a packet carries, with the inverted checksum its nibbles do not cancel. -/
theorem nibbleSum_make_inverted : nibbleSum (make value asksTelemetry true) = 0xF := by
  rw [nibbleSum_eq, shiftRight_make, and_make, checksum_inverted, ← UInt16.xor_assoc,
    UInt16.xor_self, UInt16.zero_xor]

end Packet

namespace Encoding

variable {encoding : Encoding} {packet : UInt16} {edges : List UInt32}

/-- How many ticks the width of a pulse may be off. -/
def slack : Encoding → Nat
  | bits => 3
  | nibbles => 1

/-- Edges that transmitted words leave on the wire. Each word but the zero at the end makes a pulse,
which rises anywhere in its slot and has the width of the word, give or take the slack. -/
def Echoes (encoding : Encoding) (words edges : List UInt32) : Prop :=
  ∃ rise width : Nat → Nat,
    (edges = (List.range words.dropLast.length).flatMap fun index =>
      [UInt32.ofNat (rise index), UInt32.ofNat ((rise index + width index) % encoding.period)]) ∧
    ∀ index < words.dropLast.length, rise index < encoding.period ∧
      (words.dropLast.getD index 0).toNat ≤ width index + encoding.slack ∧
      width index ≤ (words.dropLast.getD index 0).toNat + encoding.slack

theorem tolerates_of_slack {symbol width : Nat} (isSymbol : symbol < encoding.radix)
    (enough : encoding.width symbol ≤ width + encoding.slack)
    (atMost : width ≤ encoding.width symbol + encoding.slack) :
    encoding.Tolerates symbol width := by
  cases encoding with
  | bits =>
      simp only [radix, slack, Encoding.width] at isSymbol enough atMost
      simp only [Tolerates]
      split <;> omega
  | nibbles => exact ⟨enough, atMost⟩

theorem dropLast_frame (encoding : Encoding) (packet : UInt16) :
    (encoding.frame packet).dropLast = encoding.pulses packet := by
  rw [frame, List.dropLast_concat]

theorem toNat_getD_pulses {index : Nat} (isPulse : index < encoding.symbolCount) :
    ((encoding.pulses packet).getD index 0).toNat =
      encoding.width (encoding.symbol packet index) := by
  simp [pulses, isPulse, toNat_pulse (symbol_lt_radix encoding packet index)]

/-- An echo of a packet holds as many edges as a reply, and spells the packet. -/
theorem decode_of_echoes (echoes : encoding.Echoes (encoding.frame packet) edges) :
    edges.length = encoding.captureLength ∧
      encoding.decode edges =
        if Packet.nibbleSum packet = 0 then some (packet >>> 4) else none := by
  rcases echoes with ⟨rise, width, rfl, disturbed⟩
  rw [dropLast_frame, length_pulses] at disturbed ⊢
  have tolerated : ∀ index < encoding.symbolCount,
      encoding.Tolerates (encoding.symbol packet index) (width index) := by
    intro index isPulse
    rcases disturbed index isPulse with ⟨_, enough, atMost⟩
    rw [toNat_getD_pulses isPulse] at enough atMost
    exact tolerates_of_slack (symbol_lt_radix encoding packet index) enough atMost
  have spelled := decode_edgesOf (fun index isPulse => (disturbed index isPulse).1) tolerated []
  rw [List.append_nil] at spelled
  exact ⟨length_edgesOf encoding rise width, spelled⟩

/-- The echo of a packet with the inverted checksum is not decoded. -/
theorem decode_echo {value : UInt16} {asksTelemetry : Bool}
    (echoes : encoding.Echoes (encoding.frame (Packet.make value asksTelemetry true)) edges) :
    edges.length = encoding.captureLength ∧ encoding.decode edges = none := by
  have spelled := decode_of_echoes echoes
  rwa [Packet.nibbleSum_make_inverted, if_neg (by decide)] at spelled

end Encoding

end Rotor

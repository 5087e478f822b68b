import Rotor.Fault
import Rotor.Wire.Protocol

/-!
# Pulses of a packet

A packet leaves as a list of pulse widths in timer ticks, most significant symbol first, followed by
one zero word that leaves the line low. `Encoding.layOut` puts these words into a buffer at a
stride, so that the frames of several motors can share one buffer.
-/

namespace Rotor.Encoding

/-- The symbol that pulse `index` of a packet carries, counted from the most significant one. -/
def symbol (encoding : Encoding) (packet : UInt16) (index : Nat) : Nat :=
  match encoding with
  | bits => packet.toNat >>> (15 - index) % 2
  | nibbles => packet.toNat >>> (4 * (3 - index)) % 16

/-- The width of the pulse that carries a symbol. -/
def width (encoding : Encoding) (symbol : Nat) : Nat :=
  match encoding with
  | bits => 7 + 7 * symbol
  | nibbles => 24 + 3 * symbol

/-- The pulse widths of a packet, most significant symbol first. -/
def pulses (encoding : Encoding) (packet : UInt16) : List UInt32 :=
  (List.range encoding.symbolCount).map fun index =>
    UInt32.ofNat (encoding.width (encoding.symbol packet index))

/-- The words that transmit a packet: its pulses, and the zero that leaves the line low. -/
def frame (encoding : Encoding) (packet : UInt16) : List UInt32 :=
  encoding.pulses packet ++ [0]

@[simp]
theorem length_pulses (encoding : Encoding) (packet : UInt16) :
    (encoding.pulses packet).length = encoding.symbolCount := by
  simp [pulses]

@[simp]
theorem length_frame (encoding : Encoding) (packet : UInt16) :
    (encoding.frame packet).length = encoding.frameLength := by
  simp [frame, frameLength]

/-- Writes `words` to the places `start`, `start + stride`, `start + 2 * stride`, … of a buffer.
A word whose place lies past the end is dropped. -/
def place (words : List UInt32) (start stride : Nat) (buffer : List UInt32) : List UInt32 :=
  match words with
  | [] => buffer
  | word :: rest => place rest (start + stride) stride (buffer.set start word)

@[simp]
theorem length_place (words : List UInt32) (start stride : Nat) (buffer : List UInt32) :
    (place words start stride buffer).length = buffer.length := by
  induction words generalizing start buffer with
  | nil => rfl
  | cons word rest ih => simp [place, ih]

/-- Writes the frame of a packet into a buffer at a stride, where a stride of zero counts as one.

The answer is the number of words in the frame and the new buffer. The place of every word has to
fit a 64-bit word, also where the buffer ends before it. -/
def layOut (encoding : Encoding) (packet : UInt16) (stride : Nat) (buffer : List UInt32) :
    Except Fault (Nat × List UInt32) := do
  let stride := max stride 1
  let _ ← Fault.checkedMul UInt64.size encoding.symbolCount stride
  return (encoding.frameLength, place (encoding.frame packet) 0 stride buffer)

/-- The edges of an undisturbed packet: every pulse rises at `phase` in its slot and falls a pulse
width later, both as the counter shows them that starts anew with every slot. -/
def edges (encoding : Encoding) (packet : UInt16) (phase : Nat) : List UInt32 :=
  (encoding.pulses packet).flatMap fun pulse =>
    [UInt32.ofNat (phase % encoding.period),
      UInt32.ofNat ((phase + pulse.toNat) % encoding.period)]

@[simp]
theorem length_edges (encoding : Encoding) (packet : UInt16) (phase : Nat) :
    (encoding.edges packet phase).length = encoding.captureLength := by
  have edgesOfPulse (pulses : List UInt32) (slot : UInt32 → List UInt32)
      (two : ∀ pulse, (slot pulse).length = 2) : (pulses.flatMap slot).length = 2 * pulses.length := by
    induction pulses with
    | nil => rfl
    | cons pulse rest ih =>
      rw [List.flatMap_cons, List.length_append, ih, two, List.length_cons]
      omega
  rw [edges, edgesOfPulse _ _ (fun _ => rfl), length_pulses, captureLength]

end Rotor.Encoding

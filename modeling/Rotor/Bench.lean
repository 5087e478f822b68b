import Rotor.Link.Run
import Rotor.Wire.Packet
import Rotor.Wire.Pulse

/-!
# The bench

On a bench a link runs without hardware. Its motors are wired to channels as one likes, some of them
are refused, and edges lie ready for the channels. `Replies` are motors that answer every frame in
the same way.
-/

namespace Rotor

/-- What stands in place of the hardware. -/
structure Bench where
  /-- The channels of the first motors. The motors after them follow timer by timer. -/
  wiring : List Channel
  /-- The motors whose claims are refused. -/
  refusals : List (Nat × ClaimError)
  /-- The edges that lie ready for a channel, and the number that is claimed for them in place of
  their own. -/
  ready : List (Channel × List UInt32 × Option Nat)
  deriving DecidableEq, Repr, Inhabited

namespace Bench

/-- The channel that a motor is wired to. -/
def channelOf (bench : Bench) (motor : Nat) : Channel :=
  bench.wiring.getD motor
    { timer := ⟨UInt8.ofNat (motor / channelsPerTimer)⟩
      index := UInt8.ofNat (motor % channelsPerTimer) }

/-- The answer to the claim of a motor. -/
def answer (bench : Bench) (motor : Nat) : Except ClaimError Channel :=
  match bench.refusals.lookup motor with
  | some error => .error error
  | none => .ok (bench.channelOf motor)

/-- Lays edges ready for the channel of a motor, in place of those that lay there. -/
def layReady (bench : Bench) (motor : Nat) (edges : List UInt32) (claim : Option Nat) : Bench :=
  let channel := bench.channelOf motor
  { bench with
    ready := (channel, edges, claim) :: bench.ready.filter fun entry => entry.1 ≠ channel }

/-- What a link is given when it asks for the edges of a motor. -/
def capture (bench : Bench) (link : Link) (motor : Nat) : Capture :=
  match link.motor? motor with
  | none => .nothing
  | some state =>
    match bench.ready.lookup state.channel with
    | none => .nothing
    | some (edges, claim) =>
      let delivered := Capture.ofWords (edges.take link.encoding.captureLength)
      { delivered with count := claim.getD delivered.count }

end Bench

/-- Motors that answer every frame in the same way. -/
structure Replies where
  /-- The payloads of the motors. A motor without one does not answer. -/
  payloads : List (Option UInt16)
  /-- The timer count at which a reply begins. -/
  phase : Nat
  /-- The bits that are flipped in the checksum of a reply. -/
  flips : UInt16
  deriving DecidableEq, Repr, Inhabited

namespace Replies

/-- The edges of the reply of a motor. -/
def edges? (replies : Replies) (encoding : Encoding) (motor : Nat) : Option (List UInt32) :=
  (replies.payloads[motor]?).join.map fun payload =>
    encoding.edges (Packet.reply payload replies.flips) replies.phase

/-- The capture of the reply of a motor. -/
def capture? (replies : Replies) (encoding : Encoding) (motor : Nat) : Option Capture :=
  (replies.edges? encoding motor).map Capture.ofWords

end Replies

/-- Lays the replies of all motors of a link ready. -/
def Bench.layReplies (bench : Bench) (link : Link) (replies : Replies) : Bench :=
  (List.range link.motorCount).foldl (fun bench motor =>
    match replies.edges? link.encoding motor with
    | some edges => bench.layReady motor edges none
    | none => bench) bench

/-- The link after each of `count` motor frames, with the calls that are made in it. -/
def Link.frames (link : Link) (throttles : Nat → UInt16) (replies : Replies) :
    Nat → Except Fault (List (Link × List Call))
  | 0 => .ok []
  | count + 1 => do
    let (next, calls) ← link.frame throttles (replies.capture? link.encoding)
    let later ← frames next throttles replies count
    return (next, calls) :: later

end Rotor

import Rotor.Link.Basic
import Rotor.Wire.Reception

/-!
# Receiving replies

A completed transfer arrives as an interrupt. If the channel was sending, it is turned to input and
armed for the reply. If it was receiving, the captured edges go into the mailbox of the motor.
`Link.beginFrame` collects the mailboxes, decodes what they hold and turns all channels back to
output.
-/

namespace Rotor

/-- What the beginning of a frame finds for a motor. -/
inductive Reply
  /-- A reply with a payload. -/
  | valid (payload : UInt16)
  /-- A capture whose checksum fails, as it lies in a cleared buffer. -/
  | damaged (edges : List UInt32)
  /-- No capture. It is overdue if a frame went out that it would have answered. -/
  | missing (overdue : Bool)
  deriving DecidableEq, Repr, Inhabited

namespace MotorState

/-- The words that a mailbox is collected into. -/
def blank : List UInt32 := List.replicate Mailbox.capacity 0

/-- What the mailbox of a motor holds when a frame begins. -/
def reply (state : MotorState) (encoding : Encoding) : Reply :=
  match state.mailbox.collect blank with
  | (some count, edges, _) =>
    match encoding.decode (edges.take count) with
    | some payload => .valid payload
    | none => .damaged edges
  | (none, _, _) => .missing state.owesReply

/-- The telemetry of a motor after a reply. A missing reply that was not due changes nothing. -/
def telemetryAfter (state : MotorState) : Reply → Option UInt16
  | .valid payload => some payload
  | .damaged _ => none
  | .missing true => none
  | .missing false => state.telemetry

/-- A motor at the beginning of a frame: its reply is taken in and its channel drives the wire. -/
def begin (state : MotorState) (encoding : Encoding) : MotorState :=
  { state with
    mailbox := (state.mailbox.collect blank).2.2
    telemetry := state.telemetryAfter (state.reply encoding)
    owesReply := false
    direction := .output }

/-- The calls for one motor at the beginning of a frame. A capture that has not come is broken
off. -/
def beginCalls (state : MotorState) (encoding : Encoding) : List Call :=
  match state.reply encoding with
  | .missing _ => [.halt state.channel, .drive state.channel]
  | _ => [.drive state.channel]

/-- A motor whose channel is turned to input. -/
def flip (state : MotorState) : MotorState :=
  { state with direction := .input }

/-- The calls that turn a channel to input and arm it, none for a channel that is there already. -/
def flipCalls (state : MotorState) (encoding : Encoding) : List Call :=
  match state.direction with
  | .input => []
  | .output => [.listen state.channel, .arm state.channel encoding.captureLength]

end MotorState

namespace Counters

/-- Counts the reply of a motor. Of damaged captures only those of motor 0 are kept. -/
def noteReply (counters : Counters) (motor : Nat) : Reply → Counters
  | .valid _ => counters
  | .damaged edges =>
    { counters with
      damaged := counters.damaged + 1
      lastDamaged := if motor = 0 then edges else counters.lastDamaged }
  | .missing true => { counters with missed := counters.missed + 1 }
  | .missing false => counters

/-- Counts the replies of all motors, of which the first has the given number. -/
def noteReplies (counters : Counters) (encoding : Encoding) (first : Nat) :
    List (Option MotorState) → Counters
  | [] => counters
  | none :: rest => noteReplies counters encoding (first + 1) rest
  | some state :: rest =>
    noteReplies (counters.noteReply first (state.reply encoding)) encoding (first + 1) rest

end Counters

namespace Link

/-- Begins a frame: takes in the replies to the last one and turns all channels to output. Without
telemetry there is nothing to do, since no channel ever leaves output. -/
def beginFrame (link : Link) : Link × List Call :=
  if link.telemetry then
    let states := link.motors.filterMap id
    ({ link with
        motors := link.motors.map (Option.map fun state => state.begin link.encoding)
        counters := link.counters.noteReplies link.encoding 0 link.motors },
      states.flatMap (fun state => state.beginCalls link.encoding) ++
        states.map fun state => .enable state.channel)
  else
    (link, [])

/-- Turns the channels of the chosen motors to input. -/
def flipWhere (link : Link) (chosen : Nat → MotorState → Bool) : Link × List Call :=
  let flips (motor : Nat) (state : MotorState) : Bool :=
    chosen motor state && state.direction == .output
  let numbered := link.motors.zipIdx
  let flipped := numbered.filterMap fun (state?, motor) => state?.filter (flips motor)
  ({ link with
      motors := link.motors.mapIdx fun motor =>
        Option.map fun state => if flips motor state then state.flip else state
      counters := { link.counters with
        flips := link.counters.flips + UInt32.ofNat flipped.length } },
    flipped.flatMap fun state => state.flipCalls link.encoding)

/-- Takes in that a channel has finished sending. With telemetry its motor is turned to input, and
with bursts all motors on its timer are. -/
def sent (link : Link) (motor : Nat) (state : MotorState) : Link × List Call :=
  let timer := state.channel.timer
  let stop : Call := if link.burst then .haltBurst timer else .halt state.channel
  if link.telemetry then
    let (flipped, calls) := link.flipWhere fun other otherState =>
      if link.burst then otherState.channel.timer = timer else other = motor
    (flipped, stop :: calls)
  else
    (link, [stop])

/-- Takes in that a channel has finished capturing. The hardware is asked for the edges only
when the mailbox is free for them; it writes at most a complete reply. -/
def received (link : Link) (motor : Nat) (state : MotorState) (capture : Capture) :
    Link × List Call :=
  let room := link.encoding.captureLength
  let delivered := { capture with words := capture.words.take room }
  match state.mailbox.deposit delivered with
  | (true, mailbox) =>
    ({ link with
        motors := link.motors.modify motor (Option.map fun state => { state with mailbox })
        counters := { link.counters with captured := link.counters.captured + 1 } },
      [.halt state.channel, .fetch state.channel room])
  | (false, _) => (link, [.halt state.channel])

/-- Handles the completed transfer of the stream that serves a motor. The completion flag is taken
back in any case. `capture` is what the hardware delivers if it is asked for edges. -/
def transferDone (link : Link) (motor : Nat) (capture : Capture) : Link × List Call :=
  let (next, calls) :=
    match link.motor? motor with
    | none => (link, [])
    | some state =>
      match state.direction with
      | .input => link.received motor state capture
      | .output => link.sent motor state
  (next, calls ++ [.acknowledge motor])

end Link

end Rotor

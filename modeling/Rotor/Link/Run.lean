import Rotor.Link.Connect
import Rotor.Link.Receive
import Rotor.Link.Transmit

/-!
# Runs of a link

The operations on a link as data, and runs over lists of them. A run answers with the last link and
with all calls in the order in which they are made. A motor frame begins, writes every motor, and
ends; after it the transfers complete and the motors answer.
-/

namespace Rotor.Link

/-- An operation on a link. -/
inductive Op
  /-- Begins a frame. -/
  | beginFrame
  /-- Stages a throttle value for a motor. -/
  | write (motor : Nat) (throttle : UInt16)
  /-- Ends a frame. -/
  | endFrame
  /-- Handles a completed transfer, with what the hardware delivers if it is asked for edges. -/
  | transferDone (motor : Nat) (capture : Capture)
  /-- Queues a special command. -/
  | send (target : Target) (command : Command)
  deriving DecidableEq, Repr, Inhabited

/-- Performs one operation. -/
def step (link : Link) : Op → Except Fault (Link × List Call)
  | .beginFrame => .ok link.beginFrame
  | .write motor throttle => link.write motor throttle
  | .endFrame => .ok link.endFrame
  | .transferDone motor capture => .ok (link.transferDone motor capture)
  | .send target command => .ok ((link.send target command).2, [])

/-- Performs operations one after the other. -/
def run (link : Link) : List Op → Except Fault (Link × List Call)
  | [] => .ok (link, [])
  | op :: rest => do
    let (next, calls) ← link.step op
    let (last, more) ← run next rest
    return (last, calls ++ more)

/-- Writes all of the first `count` motors. -/
def writeOps (count : Nat) (throttles : Nat → UInt16) : List Op :=
  (List.range count).map fun motor => .write motor (throttles motor)

/-- The operations of one motor frame. -/
def frameOps (count : Nat) (throttles : Nat → UInt16) : List Op :=
  .beginFrame :: writeOps count throttles ++ [.endFrame]

/-- Completes the transfer of one motor after a frame: first its output, then the capture of its
reply where it gives one. -/
def completeMotor (link : Link) (motor : Nat) (reply : Option Capture) : Link × List Call :=
  let (sent, calls) :=
    if link.direction motor = some .output then link.transferDone motor .nothing else (link, [])
  match reply with
  | some capture =>
    let (received, more) := sent.transferDone motor capture
    (received, calls ++ more)
  | none => (sent, calls)

/-- Completes the transfers of motors in the given order. -/
def completeMotors (link : Link) (replies : Nat → Option Capture) :
    List Nat → Link × List Call
  | [] => (link, [])
  | motor :: rest =>
    let (next, calls) := link.completeMotor motor (replies motor)
    let (last, more) := completeMotors next replies rest
    (last, calls ++ more)

/-- Completes the transfers of all motors after a frame. -/
def exchange (link : Link) (replies : Nat → Option Capture) : Link × List Call :=
  link.completeMotors replies (List.range link.motorCount)

/-- One motor frame and the replies to it. -/
def frame (link : Link) (throttles : Nat → UInt16) (replies : Nat → Option Capture) :
    Except Fault (Link × List Call) := do
  let (sent, calls) ← link.run (frameOps link.motorCount throttles)
  let (last, more) := sent.exchange replies
  return (last, calls ++ more)

end Rotor.Link

import Rotor.Board.Basic
import Rotor.Loop

/-!
# The control loop on the board

A controller runs a link and its filter over the board. Completed transfers are found by polling the
status flags of the streams between the turns of the loop. A run of a controller answers with the
accesses to registers in the order in which they are made.
-/

namespace Rotor

open Board (Access)

/-- A control loop on the board. -/
structure Controller where
  board : Board
  loop : Loop

namespace Controller

/-- An operation on a controller. -/
inductive Op
  /-- One turn of the control loop, with one throttle value for all motors. -/
  | turn (throttle : UInt16)
  /-- Begins a frame. -/
  | beginFrame
  /-- Stages a throttle value for a motor. -/
  | write (motor : Nat) (throttle : UInt16)
  /-- Ends a frame. -/
  | endFrame
  /-- Looks at the completion flags, and handles the transfers that have completed. -/
  | poll (flags : UInt8)
  /-- The hardware stores edges for a channel. -/
  | store (channel : Nat) (edges : List UInt32)
  /-- Queues a special command. -/
  | send (target : Target) (command : Command)
  deriving DecidableEq, Repr, Inhabited

/-- Starts a controller on a board. -/
def start (board : Board) (settings : FilterSettings) (motors : MotorSettings)
    (timing : Timing) : Except FilterError (Controller × List Access) := do
  let (link, calls) ← (Link.connect motors timing board.answer).mapError .fault
  let filter ← Filter.new settings motors timing
  let (board, accesses) := board.performAll calls
  return ({ board, loop := { link, filter } }, accesses)

/-- Takes over a new link and performs its calls. -/
def settle (controller : Controller) (link : Link) (calls : List Call) :
    Controller × List Access :=
  let (board, accesses) := controller.board.performAll calls
  ({ board, loop := { controller.loop with link } }, accesses)

/-- What the board delivers if the link asks for the edges of a motor. -/
def capture (controller : Controller) (motor : Nat) : Capture :=
  match controller.loop.link.motor? motor with
  | some state =>
    controller.board.capture state.channel controller.loop.link.encoding.captureLength
  | none => .nothing

/-- Handles the completed transfer of a motor. -/
def transferDone (controller : Controller) (motor : Nat) : Controller × List Access :=
  let (link, calls) := controller.loop.link.transferDone motor (controller.capture motor)
  controller.settle link calls

/-- Handles completed transfers in the given order. -/
def transfersDone (controller : Controller) : List Nat → Controller × List Access
  | [] => (controller, [])
  | motor :: rest =>
    let (next, accesses) := controller.transferDone motor
    let (last, more) := transfersDone next rest
    (last, accesses ++ more)

/-- The motors that a set of completed ones holds, in increasing order. -/
def motorsOf (completed : UInt8) : List Nat :=
  (List.range maxMotors).filter fun motor => completed.toNat.testBit motor

/-- Performs one operation. -/
def step (controller : Controller) : Op → Except Fault (Controller × List Access)
  | .turn throttle => do
    let (loop, calls) ← controller.loop.turn fun _ => throttle
    let (board, accesses) := controller.board.performAll calls
    return ({ board, loop }, accesses)
  | .beginFrame =>
    let (link, calls) := controller.loop.link.beginFrame
    .ok (controller.settle link calls)
  | .write motor throttle => do
    let (link, calls) ← controller.loop.link.write motor throttle
    return controller.settle link calls
  | .endFrame =>
    let (link, calls) := controller.loop.link.endFrame
    .ok (controller.settle link calls)
  | .poll flags =>
    let (next, accesses) := controller.transfersDone (motorsOf (Board.completed flags))
    .ok (next, Board.completedAccesses ++ accesses)
  | .store channel edges =>
    .ok ({ controller with board := controller.board.store channel edges }, [])
  | .send target command =>
    .ok (controller.settle (controller.loop.link.send target command).2 [])

/-- Performs operations one after the other. -/
def run (controller : Controller) : List Op → Except Fault (Controller × List Access)
  | [] => .ok (controller, [])
  | op :: rest => do
    let (next, accesses) ← controller.step op
    let (last, more) ← run next rest
    return (last, accesses ++ more)

end Controller

end Rotor

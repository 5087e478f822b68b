import Rotor.Link.Basic

/-!
# Connecting a link

A link claims a channel for every motor and turns it to output. The first motor that is found on a
timer brings the timer into service. A motor whose claim is refused stays without a channel, and so
does a fifth motor on one timer.

Here the channels of a timer that are given out are counted. The groups that the motors go into, and
the places that they keep of them, are those of `Rotor.Link.Roster`.
-/

namespace Rotor.Link

/-- The motors, the timers and the calls of a link that is being connected. -/
structure Assignment where
  motors : List (Option MotorState)
  timers : List TimerState
  calls : List Call
  deriving DecidableEq, Repr, Inhabited

namespace Assignment

/-- The number of motors that have a channel of a timer. -/
def occupancy (assignment : Assignment) (timer : Timer) : Nat :=
  assignment.motors.countP fun motor => motor.any fun state => state.channel.timer = timer

/-- Whether a motor was found on a timer before. -/
def knows (assignment : Assignment) (timer : Timer) : Bool :=
  assignment.timers.any fun entry => entry.timer = timer

/-- Leaves the next motor without a channel. -/
def skip (assignment : Assignment) : Assignment :=
  { assignment with motors := assignment.motors ++ [none] }

/-- Brings a timer into service unless it is already. -/
def introduce (assignment : Assignment) (protocol : Protocol) (timer : Timer) : Assignment :=
  if assignment.knows timer then
    assignment
  else
    { assignment with
      timers := assignment.timers ++ [.ofTimer timer]
      calls := assignment.calls ++ [.setUpTimer timer protocol] }

/-- Gives the next motor a channel. -/
def attach (assignment : Assignment) (channel : Channel) : Assignment :=
  if assignment.occupancy channel.timer < channelsPerTimer then
    { assignment with
      motors := assignment.motors ++ [some (.onChannel channel)]
      calls := assignment.calls ++ [.drive channel, .enable channel] }
  else
    assignment.skip

/-- Claims a channel for a motor, and goes by the answer to it. -/
def claim (assignment : Assignment) (settings : MotorSettings) (motor : Nat)
    (answer : Except ClaimError Channel) : Assignment :=
  let claimed := { assignment with calls := assignment.calls ++ [Call.claim motor settings.burst] }
  match answer with
  | .error _ => claimed.skip
  | .ok channel => (claimed.introduce settings.protocol channel.timer).attach channel

end Assignment

/-- Claims channels for all motors, given the answers to the claims. -/
def claimAll (settings : MotorSettings) (answers : Nat → Except ClaimError Channel) : Assignment :=
  (List.range (min settings.motorCount.toNat maxMotors)).foldl
    (fun assignment motor => assignment.claim settings motor (answers motor))
    { motors := [], timers := [], calls := [] }

/-- Connects a link to hardware that answers claims by `answers`. A motor frame takes one turn of
the control loop. -/
def connect (settings : MotorSettings) (timing : Timing)
    (answers : Nat → Except ClaimError Channel) : Except Fault (Link × List Call) := do
  let micros ← timing.loopMicros
  let assignment := claimAll settings answers
  let link : Link :=
    { encoding := settings.protocol.encoding
      telemetry := settings.telemetry
      burst := settings.burst
      motors := assignment.motors
      timers := assignment.timers
      commands := .empty micros.toNat
      counters := .zero }
  return (link, assignment.calls)

end Rotor.Link

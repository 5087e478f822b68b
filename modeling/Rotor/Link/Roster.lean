import Rotor.Link.Connect

/-!
# The groups of a link

A link keeps its motors in groups, one for each timer in service, and a motor keeps the place of its
group. All of this is settled while the motors are claimed for, in lists that have only so much
room: a group takes as many motors as a timer has channels, and there are as many groups as motors
at most.

`Roster.claim` is a claim as it goes through these lists. `Assignment.claim` comes to the same motors,
timers and calls by counting channels instead.
-/

namespace Rotor.Link

/-- The motors on one timer, in the order in which they were found there. -/
structure Group where
  timer : Timer
  members : List Nat
  deriving DecidableEq, Repr, Inhabited

/-- The channel of a motor, with the place of the group that the motor is in. -/
structure Seat where
  channel : Channel
  group : Nat
  deriving DecidableEq, Repr, Inhabited

/-- The seats, the groups and the calls of a link that is being connected. -/
structure Roster where
  /-- The seats of the motors so far. A motor without a channel has none. -/
  seats : List (Option Seat)
  groups : List Group
  calls : List Call
  deriving DecidableEq, Repr, Inhabited

/-- Adds a motor to a group, none where the group is full. -/
def Group.push? (group : Group) (motor : Nat) : Option Group :=
  if group.members.length < channelsPerTimer then
    some { group with members := group.members ++ [motor] }
  else
    none

namespace Roster

/-- No motor has been claimed for. -/
def empty : Roster where
  seats := []
  groups := []
  calls := []

/-- Adds a group, none where there are as many as there can be. -/
def push? (roster : Roster) (group : Group) : Option Roster :=
  if roster.groups.length < maxMotors then
    some { roster with groups := roster.groups ++ [group] }
  else
    none

/-- Leaves the next motor without a seat. -/
def skip (roster : Roster) : Roster :=
  { roster with seats := roster.seats ++ [none] }

/-- The place of the group of a timer. A timer without a group is set up and is given one, and the
place is none where there is no room for it. -/
def enter (roster : Roster) (protocol : Protocol) (timer : Timer) : Option Nat × Roster :=
  match roster.groups.findIdx? fun group => group.timer = timer with
  | some place => (some place, roster)
  | none =>
    let announced := { roster with calls := roster.calls ++ [Call.setUpTimer timer protocol] }
    match announced.push? { timer, members := [] } with
    | some grown => (some (grown.groups.length - 1), grown)
    | none => (none, announced)

/-- Gives a motor a seat in the group at a place, unless the group is full. The place is one that
`enter` has answered with. -/
def sit (roster : Roster) (motor : Nat) (channel : Channel) (place : Nat) : Roster :=
  match (roster.groups[place]?).bind fun group => group.push? motor with
  | some group =>
    { seats := roster.seats ++ [some { channel, group := place }]
      groups := roster.groups.set place group
      calls := roster.calls ++ [.drive channel, .enable channel] }
  | none => roster.skip

/-- Claims a channel for a motor, and goes by the answer to it. -/
def claim (roster : Roster) (settings : MotorSettings) (motor : Nat)
    (answer : Except ClaimError Channel) : Roster :=
  let claimed := { roster with calls := roster.calls ++ [Call.claim motor settings.burst] }
  match answer with
  | .error _ => claimed.skip
  | .ok channel =>
    match claimed.enter settings.protocol channel.timer with
    | (some place, entered) => entered.sit motor channel place
    | (none, full) => full.skip

end Roster

/-- Claims channels for all motors, given the answers to the claims. -/
def enroll (settings : MotorSettings) (answers : Nat → Except ClaimError Channel) : Roster :=
  (List.range (min settings.motorCount.toNat maxMotors)).foldl
    (fun roster motor => roster.claim settings motor (answers motor)) .empty

end Rotor.Link

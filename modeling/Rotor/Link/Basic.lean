import Rotor.Command.Queue
import Rotor.Mailbox
import Rotor.Hardware
import Rotor.Settings.Basic

/-!
# The motor link

A link sends packets to up to eight motors and reads their replies, on one wire for each motor. A
wire leads to a channel of a timer, and channels of one timer start together, so the link keeps a
record for each motor and one for each timer.

This file holds the state of a link and what can be read off it. The operations are in the files
beside it; every one answers with the new link and with the calls that it makes on the hardware.
-/

namespace Rotor

/-- The way a channel drives its wire. -/
inductive Direction
  | output
  | input
  deriving DecidableEq, Repr, Inhabited

/-- What a link knows of one motor. -/
structure MotorState where
  /-- The channel that the wire of the motor leads to. -/
  channel : Channel
  /-- The way the channel drives the wire. -/
  direction : Direction
  /-- The place of a captured reply. -/
  mailbox : Mailbox
  /-- The payload of the last reply, none where it was missing or damaged. -/
  telemetry : Option UInt16
  /-- The value last written. -/
  value : UInt16
  /-- Whether a frame went out whose reply is still due. -/
  owesReply : Bool
  deriving DecidableEq, Repr, Inhabited

/-- A motor that has been given a channel and nothing else. -/
def MotorState.onChannel (channel : Channel) : MotorState where
  channel
  direction := .output
  mailbox := .new
  telemetry := none
  value := 0
  owesReply := false

/-- What a link knows of one timer. -/
structure TimerState where
  timer : Timer
  /-- The channels that are loaded and not yet started. -/
  pending : ChannelSet
  /-- The words of a burst, one for each channel and symbol. -/
  burst : List UInt32
  /-- The number of words that a burst sends, zero as long as nothing was written. -/
  burstLength : Nat
  deriving DecidableEq, Repr, Inhabited

namespace TimerState

/-- The number of words in a burst buffer, enough for the longest frame. -/
def burstCapacity : Nat := 68

/-- A timer that nothing was written to. -/
def ofTimer (timer : Timer) : TimerState where
  timer
  pending := .empty
  burst := List.replicate burstCapacity 0
  burstLength := 0

end TimerState

/-- Counters of a link, each modulo `2 ^ 32`. -/
structure Counters where
  /-- Captures that were handed over by the interrupt. -/
  captured : UInt32
  /-- Captures whose checksum failed. -/
  damaged : UInt32
  /-- Replies that had not come when the next frame began. -/
  missed : UInt32
  /-- Channels turned from output to input. -/
  flips : UInt32
  /-- The last capture of motor 0 whose checksum failed. -/
  lastDamaged : List UInt32
  deriving DecidableEq, Repr, Inhabited

/-- Counters that nothing was counted in. -/
def Counters.zero : Counters where
  captured := 0
  damaged := 0
  missed := 0
  flips := 0
  lastDamaged := List.replicate Mailbox.capacity 0

/-- A link to the motors. -/
structure Link where
  encoding : Encoding
  /-- Whether the motors answer on the same wire. -/
  telemetry : Bool
  /-- Whether one burst serves all channels of a timer. -/
  burst : Bool
  /-- The motors, by their number. A motor without a channel is left out of everything. -/
  motors : List (Option MotorState)
  /-- The timers in the order in which motors were found on them. -/
  timers : List TimerState
  /-- The special commands that wait. -/
  commands : Queue
  counters : Counters
  deriving DecidableEq, Repr, Inhabited

namespace Link

/-- The number of motors, with or without a channel. -/
def motorCount (link : Link) : Nat :=
  link.motors.length

/-- What the link knows of a motor, none for a motor without a channel. -/
def motor? (link : Link) (motor : Nat) : Option MotorState :=
  (link.motors[motor]?).join

/-- Whether a motor has a channel. -/
def isConnected (link : Link) (motor : Nat) : Bool :=
  (link.motor? motor).isSome

/-- The way the channel of a motor drives its wire. -/
def direction (link : Link) (motor : Nat) : Option Direction :=
  (link.motor? motor).map MotorState.direction

/-- The payload of the last reply of a motor. -/
def telemetryOf (link : Link) (motor : Nat) : Option UInt16 :=
  (link.motor? motor).bind MotorState.telemetry

/-- The value last written for a motor, after special commands took their place. -/
def valueOf (link : Link) (motor : Nat) : Option UInt16 :=
  (link.motor? motor).map MotorState.value

/-- Whether a special command waits. -/
def hasCommand (link : Link) : Bool :=
  link.commands.isBusy

/-- The motors on a timer, in increasing order. They are the members of its group in the roster by
which the link was connected. -/
def members (link : Link) (timer : Timer) : List Nat :=
  (List.range link.motorCount).filter fun motor =>
    (link.motor? motor).any fun state => state.channel.timer = timer

/-- What the link knows of a timer. -/
def timer? (link : Link) (timer : Timer) : Option TimerState :=
  link.timers.find? fun entry => entry.timer = timer

/-- Queues a special command. The flag tells whether there was room for it. -/
def send (link : Link) (target : Target) (command : Command) : Bool × Link :=
  let (accepted, commands) := link.commands.enqueue target command
  (accepted, { link with commands })

end Link

end Rotor

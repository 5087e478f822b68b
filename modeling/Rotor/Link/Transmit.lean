import Rotor.Link.Basic
import Rotor.Wire.Packet
import Rotor.Wire.Pulse

/-!
# Sending a frame

A frame is staged motor by motor and then started on all timers at once. `Link.write` stages the
packet of one motor: without bursts the hardware gets it at once and holds it, with bursts it goes
into its lane of the burst buffer of the timer. `Link.endFrame` starts what is staged, unless the
command queue holds the frame back.
-/

namespace Rotor

namespace TimerState

/-- Stages a frame in the lane of a channel. -/
def stageBurst (state : TimerState) (words : List UInt32) (lane : Nat) : TimerState :=
  { state with
    burst := Encoding.place words lane channelsPerTimer state.burst
    burstLength := words.length * channelsPerTimer }

/-- Marks a channel as loaded. -/
def stageChannel (state : TimerState) (channel : Channel) : TimerState :=
  { state with pending := state.pending.union channel.toSet }

/-- The channels that a timer starts at the end of a frame: those that are loaded, or with bursts
all four as soon as anything was written. -/
def due (state : TimerState) (burst : Bool) : ChannelSet :=
  if burst then
    if state.burstLength = 0 then .empty else .all
  else
    state.pending

/-- The call that starts a timer, none where nothing is due. -/
def startCall? (state : TimerState) (burst : Bool) : Option Call :=
  if (state.due burst).isEmpty then
    none
  else if burst then
    some (.burst state.timer (state.burst.take state.burstLength))
  else
    some (.start state.timer state.pending)

/-- A timer after its start. A started channel is no longer loaded, while a burst buffer keeps its
words and is sent again with the next frame. -/
def started (state : TimerState) (burst : Bool) : TimerState :=
  if burst then state else { state with pending := .empty }

end TimerState

namespace Link

/-- What a motor is to be sent in place of a throttle value: the special command that is active, if
there is one. -/
def override? (link : Link) (motor : Nat) : Option UInt16 :=
  if link.commands.isActive then some (link.commands.valueFor motor) else none

/-- The packet that a motor is sent for a throttle value. A special command takes the place of the
value, and asks for telemetry unless it is motor stop. -/
def packetFor (link : Link) (motor : Nat) (throttle : UInt16) : UInt16 :=
  match link.override? motor with
  | some command => Packet.make command (command ≠ 0) link.telemetry
  | none => Packet.make throttle false link.telemetry

/-- The value that a motor is sent for a throttle value. -/
def valueFor (link : Link) (motor : Nat) (throttle : UInt16) : UInt16 :=
  (link.override? motor).getD throttle

/-- The link with another record for the timer. -/
def updateTimer (link : Link) (timer : Timer) (update : TimerState → TimerState) : Link :=
  { link with
    timers := link.timers.map fun entry => if entry.timer = timer then update entry else entry }

/-- The link with another record for a motor that has a channel. -/
def updateMotor (link : Link) (motor : Nat) (update : MotorState → MotorState) : Link :=
  { link with motors := link.motors.modify motor (Option.map update) }

/-- Stages a throttle value for a motor. A motor without a channel is left out. With bursts the lane
of the channel must not start behind the burst buffer. -/
def write (link : Link) (motor : Nat) (throttle : UInt16) : Except Fault (Link × List Call) :=
  match link.motor? motor with
  | none => .ok (link, [])
  | some state =>
    let channel := state.channel
    let words := link.encoding.frame (link.packetFor motor throttle)
    let written := link.updateMotor motor fun state =>
      { state with value := link.valueFor motor throttle }
    if link.burst then
      let lane := channel.index.toNat
      if TimerState.burstCapacity < lane then
        .error (.startPastEnd lane TimerState.burstCapacity)
      else
        .ok (written.updateTimer channel.timer fun entry => entry.stageBurst words lane, [])
    else
      .ok (written.updateTimer channel.timer fun entry => entry.stageChannel channel,
        [.load channel words])

/-- Whether a channel is started at the end of a frame. -/
def isDue (link : Link) (channel : Channel) : Bool :=
  (link.timer? channel.timer).any fun entry => (entry.due link.burst).contains channel.index

/-- Starts all timers that have something staged. With telemetry, the started motors now owe a
reply. -/
def fire (link : Link) : Link × List Call :=
  let markSent (state : MotorState) : MotorState :=
    { state with owesReply := state.owesReply || (link.telemetry && link.isDue state.channel) }
  ({ link with
      motors := link.motors.map (Option.map markSent)
      timers := link.timers.map fun entry => entry.started link.burst },
    link.timers.filterMap fun entry => entry.startCall? link.burst)

/-- Ends a frame: starts all timers, unless a special command is in one of its delays. -/
def endFrame (link : Link) : Link × List Call :=
  match link.commands.tick with
  | (true, commands) => fire { link with commands }
  | (false, commands) => ({ link with commands }, [])

end Link

end Rotor

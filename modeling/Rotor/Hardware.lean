import Rotor.Wire.Protocol

/-!
# The hardware of a link

A link reaches the hardware only through a few calls. This file names what they deal with, timers
and their channels and sets of channels, and lists them. A call has an answer only where it claims a
channel or fetches edges.
-/

namespace Rotor

/-- A hardware timer, by its number. -/
structure Timer where
  number : UInt8
  deriving DecidableEq, Repr, Inhabited

/-- A capture and compare channel of a timer. -/
structure Channel where
  timer : Timer
  /-- The number of the channel, from zero. A timer has four channels. -/
  index : UInt8
  deriving DecidableEq, Repr, Inhabited

/-- The channels of one timer, which is also the stride of a burst. -/
def channelsPerTimer : Nat := 4

/-- A set of channels of one timer, a bit for each. -/
structure ChannelSet where
  bits : UInt8
  deriving DecidableEq, Repr, Inhabited

namespace ChannelSet

/-- No channel. -/
def empty : ChannelSet := ⟨0⟩

/-- The four channels of a timer. -/
def all : ChannelSet := ⟨0xF⟩

/-- The set of one channel, of whose number the low two bits count. -/
def single (index : UInt8) : ChannelSet := ⟨1 <<< (index &&& 3)⟩

/-- All channels of two sets. -/
def union (left right : ChannelSet) : ChannelSet := ⟨left.bits ||| right.bits⟩

/-- Whether a channel is in a set. -/
def contains (set : ChannelSet) (index : UInt8) : Bool :=
  set.bits &&& (single index).bits ≠ 0

/-- Whether no channel is in a set. -/
def isEmpty (set : ChannelSet) : Bool :=
  set.bits = 0

end ChannelSet

/-- The set of one channel. -/
def Channel.toSet (channel : Channel) : ChannelSet :=
  .single channel.index

/-- Why a motor gets no channel. -/
inductive ClaimError
  | channelInUse
  | noDma
  | noTimer
  deriving DecidableEq, Repr, Inhabited

/-- The report of a refused claim. -/
def ClaimError.message : ClaimError → String
  | channelInUse => "timer channel already in use"
  | noDma => "no DMA stream for timer channel"
  | noTimer => "no timer mapped to motor"

/-- The calls that a link makes on the hardware. -/
inductive Call
  /-- Asks for the channel of a motor, or with `burst` for the burst stream of its timer. -/
  | claim (motor : Nat) (burst : Bool)
  /-- Sets tick rate and period of a timer. -/
  | setUpTimer (timer : Timer) (protocol : Protocol)
  /-- Turns a channel to output, with an idle line. -/
  | drive (channel : Channel)
  /-- Turns a channel to capture, on both edges. -/
  | listen (channel : Channel)
  /-- Enables a channel. -/
  | enable (channel : Channel)
  /-- Hands over the words that a channel will send when its timer starts. -/
  | load (channel : Channel) (words : List UInt32)
  /-- Lets a channel capture `count` edges from now on. -/
  | arm (channel : Channel) (count : Nat)
  /-- Stops the transfers of a channel. -/
  | halt (channel : Channel)
  /-- Asks for the edges of a channel, at most `room` of them. -/
  | fetch (channel : Channel) (room : Nat)
  /-- Starts the loaded channels of a timer together. -/
  | start (timer : Timer) (channels : ChannelSet)
  /-- Starts a burst over all channels of a timer, one word for each channel and symbol. -/
  | burst (timer : Timer) (words : List UInt32)
  /-- Stops the burst of a timer. -/
  | haltBurst (timer : Timer)
  /-- Takes back the completion flag of the stream that serves a motor. -/
  | acknowledge (motor : Nat)
  deriving DecidableEq, Repr, Inhabited

end Rotor

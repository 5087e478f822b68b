import Rotor.Board.Register
import Rotor.Mailbox
import Rotor.Hardware

/-!
# The board

Four motors are wired to the channels of timer 3:

* motor 0 on pin 4, channel 0, stream 4;
* motor 1 on pin 5, channel 1, stream 5;
* motor 2 on pin 0, channel 2, stream 6;
* motor 3 on pin 1, channel 3, stream 7.

Every channel has a stream of its own. A burst goes over the first of them, which then follows the
update request of the timer and writes the compare values of all four channels.

`Board.perform` turns a call into accesses to registers. The completion interrupts of
the streams stay off, and `Board.completed` tells from the status flags which motors are done.
-/

namespace Rotor

/-- The state of the board. -/
structure Board where
  /-- The clock of the timer, in hertz. -/
  clock : Nat
  /-- How many reads of its control register still show a stopped stream at work. -/
  busyReads : Nat
  /-- Whether the last claim was for bursts. -/
  burst : Bool
  /-- The channels that are claimed. -/
  claimed : ChannelSet
  /-- The captured edges, by channel. -/
  captures : List (List UInt32)
  /-- The number of edges that each channel was armed for. -/
  captureLengths : List Nat
  /-- For each stream, the number of edges it was last started for, none if it was started to
  send. -/
  receiving : List (Option Nat)
  deriving DecidableEq, Repr, Inhabited

namespace Board

/-- The number of motors on the board. -/
def motorCount : Nat := 4

/-- The timer that the motors are wired to. -/
def timer : Timer := ⟨3⟩

/-- The stream of the first motor. -/
def firstStream : Nat := 4

/-- The pin of a motor. -/
def pin : Nat → Nat
  | 0 => 4
  | 1 => 5
  | 2 => 0
  | _ => 1

/-- The stream of a channel. -/
def streamOf (channel : Nat) : Nat :=
  firstStream + channel

/-- The request line of a channel. -/
def channelRequestLine (channel : Nat) : Nat :=
  23 + channel

/-- The request line of timer updates. -/
def updateRequestLine : Nat := 27

/-- The address of the timer. -/
def timerAddress : Nat := 0x40000400

/-- The address of the compare value of a channel. -/
def compareAddress (channel : Nat) : Nat :=
  timerAddress + 0x34 + 4 * channel

/-- The address that a burst writes to. -/
def burstAddress : Nat :=
  timerAddress + 0x4C

/-- The most words in the frame of one channel. -/
def outputCapacity : Nat := 17

/-- The most words in a burst. -/
def burstCapacity : Nat := 68

/-- A board that nothing was done with. -/
def new (clock busyReads : Nat) : Board where
  clock
  busyReads
  burst := false
  claimed := .empty
  captures := List.replicate motorCount (List.replicate Mailbox.capacity 0)
  captureLengths := List.replicate motorCount 0
  receiving := List.replicate motorCount none

/-- The answer to the claim of a motor. -/
def answer (board : Board) (motor : Nat) : Except ClaimError Channel :=
  if motorCount ≤ motor then
    .error .noTimer
  else if board.claimed.contains (UInt8.ofNat motor) then
    .error .channelInUse
  else
    .ok { timer, index := UInt8.ofNat motor }

/-- The motors whose streams have completed, by the flags of their streams. -/
def completed (flags : UInt8) : UInt8 :=
  flags &&& 0xF

/-- The accesses that read which streams have completed. -/
def completedAccesses : List Access :=
  [.read (.dmaStatus 1)]

/-- Lets a stream follow a request. -/
def routeAccesses (stream request : Nat) : List Access :=
  [.write (.requestRoute stream) [(.requestId, .number request)]]

/-- Stops a stream and waits until it has stopped. -/
def stopAccesses (board : Board) (stream : Nat) : List Access :=
  .modify (.streamControl stream) [(.streamEnable, .flag false)] ::
    List.replicate (board.busyReads + 1) (.read (.streamControl stream))

/-- Clears all flags of a stream. -/
def clearAccesses (stream : Nat) : List Access :=
  let slot := stream % 4
  [.write (.dmaClear (stream / 4))
    [(.completeFlag slot, .flag true), (.halfFlag slot, .flag true),
      (.transferErrorFlag slot, .flag true), (.directErrorFlag slot, .flag true),
      (.bufferErrorFlag slot, .flag true)]]

/-- Starts a stopped stream with cleared flags. -/
def startAccesses (board : Board) (stream : Nat) (direction : Setting) (peripheral : Nat)
    (region : Region) (count : Nat) : List Access :=
  board.stopAccesses stream ++ clearAccesses stream ++
    [.writeWord (.streamPeripheral stream) (.number peripheral),
      .writeWord (.streamMemory stream) (.address region),
      .write (.streamCount stream) [(.wordCount, .number count)],
      .write (.streamBuffer stream) [(.directDisable, .flag false)],
      .write (.streamControl stream)
        [(.transferDirection, .setting direction), (.memorySize, .setting .word32),
          (.peripheralSize, .setting .word32), (.memoryIncrement, .flag true),
          (.peripheralIncrement, .flag false), (.priority, .setting .veryHigh),
          (.streamEnable, .flag true)]]

/-- Gives the pin of a motor to the timer, with the given pull resistor. -/
def pinAccesses (motor : Nat) (pull : Setting) : List Access :=
  [.modify .pinPull [(.pull (pin motor), .setting pull)],
    .modify .pinMode [(.mode (pin motor), .setting .alternate)]]

/-- The accesses of an accepted claim. -/
def claimAccesses (motor : Nat) (burst : Bool) : List Access :=
  .modify (.pinFunction (pin motor / 8)) [(.function (pin motor % 8), .number 2)] ::
    pinAccesses motor .floating ++
      if burst ∧ motor = 0 then
        routeAccesses firstStream updateRequestLine
      else
        routeAccesses (streamOf motor) (channelRequestLine motor)

/-- Sets the tick rate and the period of the timer. The divider is at least one, and is cut to the
16 bits of its register. -/
def initAccesses (board : Board) (protocol : Protocol) : List Access :=
  let divider := max (board.clock / protocol.tickRate) 1
  [.modify .timerControl [(.counterEnable, .flag false)],
    .writeWord .timerPrescaler (.number ((divider - 1) % UInt16.size)),
    .write .timerReload [(.reload, .number (protocol.encoding.period - 1))],
    .modify .timerControl [(.reloadPreload, .flag true)]] ++
  (if board.burst then
    [.write .timerBurst
      [(.burstBase, .number 13), (.burstLength, .number (channelsPerTimer - 1))]]
  else
    []) ++
  [.write .timerEvent [(.updateEvent, .flag true)],
    .modify .timerControl [(.counterEnable, .flag true)]]

/-- Turns a channel to output, with an idle line. -/
def outputAccesses (channel : Nat) : List Access :=
  let slot := channel % 2
  [.modify .timerEnable [(.channelEnable channel, .flag false)],
    .modify (.timerOutputMode (channel / 2))
      [(.channelSelect slot, .setting .output), (.outputMode slot, .setting .pulseMode),
        (.outputPreload slot, .flag true)],
    .write (.timerCompare channel) [(.compare, .number 0)],
    .modify .timerEnable
      [(.polarity channel, .flag false), (.complementPolarity channel, .flag false)]] ++
  pinAccesses channel .floating

/-- Turns a channel to capture, on both edges. -/
def inputAccesses (channel : Nat) : List Access :=
  let slot := channel % 2
  pinAccesses channel .pullUp ++
  [.modify .timerEnable [(.channelEnable channel, .flag false)],
    .modify (.timerInputMode (channel / 2))
      [(.channelSelect slot, .setting .ownInput), (.inputFilter slot, .setting .noFilter)],
    .modify .timerEnable
      [(.polarity channel, .flag true), (.complementPolarity channel, .flag true)],
    .modify .timerStatus [(.captureFlag channel, .flag false)]]

/-- Switches the request of a channel. -/
def requestAccesses (channel : Nat) (on : Bool) : List Access :=
  [.modify .timerRequest [(.channelRequest channel, .flag on)]]

/-- Resets the counter. -/
def resetAccesses : List Access :=
  [.write .timerCounter [(.counter, .number 0)]]

/-- The state after a stream was started, to receive `count` edges or to send. -/
def withReceiving (board : Board) (channel : Nat) (count : Option Nat) : Board :=
  { board with receiving := board.receiving.set channel count }

/-- Performs a call. -/
def perform (board : Board) : Call → Board × List Access
  | .claim motor burst =>
    match board.answer motor with
    | .error _ => (board, [])
    | .ok channel =>
      ({ board with burst, claimed := board.claimed.union channel.toSet },
        claimAccesses motor burst)
  | .setUpTimer _ protocol => (board, board.initAccesses protocol)
  | .drive channel => (board, outputAccesses channel.index.toNat)
  | .listen channel => (board, inputAccesses channel.index.toNat)
  | .enable channel =>
    (board, [.modify .timerEnable [(.channelEnable channel.index.toNat, .flag true)]])
  | .load channel words =>
    let index := channel.index.toNat
    let sent := words.take outputCapacity
    (board.withReceiving index none,
      board.startAccesses (streamOf index) .memoryToPeripheral (compareAddress index)
          (.output index) sent.length ++
        [.transferOut (streamOf index) sent])
  | .arm channel count =>
    let index := channel.index.toNat
    let count := min count Mailbox.capacity
    ({ board.withReceiving index (some count) with
        captureLengths := board.captureLengths.set index count },
      routeAccesses (streamOf index) (channelRequestLine index) ++
        board.startAccesses (streamOf index) .peripheralToMemory (compareAddress index)
          (.capture index) count ++
        .transferIn (streamOf index) count :: requestAccesses index true)
  | .halt channel =>
    let index := channel.index.toNat
    (board, requestAccesses index false ++ board.stopAccesses (streamOf index))
  | .fetch _ _ => (board, [])
  | .start _ channels =>
    let started := (List.range channelsPerTimer).filter fun index =>
      channels.contains (UInt8.ofNat index)
    (board, resetAccesses ++
      [.modify .timerRequest
        (started.map fun index => (.channelRequest index, .flag true))])
  | .burst _ words =>
    let sent := words.take burstCapacity
    (board.withReceiving 0 none,
      routeAccesses firstStream updateRequestLine ++
        board.startAccesses firstStream .memoryToPeripheral burstAddress .burst sent.length ++
        .transferOut firstStream sent :: resetAccesses ++
        [.modify .timerRequest [(.updateRequest, .flag true)]])
  | .haltBurst _ =>
    (board, .modify .timerRequest [(.updateRequest, .flag false)] ::
      board.stopAccesses firstStream)
  | .acknowledge motor => (board, clearAccesses (firstStream + motor))

/-- Performs calls one after the other. -/
def performAll (board : Board) : List Call → Board × List Access
  | [] => (board, [])
  | call :: rest =>
    let (next, accesses) := board.perform call
    let (last, more) := performAll next rest
    (last, accesses ++ more)

/-- What a channel delivers when it is asked for at most `room` edges. -/
def capture (board : Board) (channel : Channel) (room : Nat) : Capture :=
  let index := channel.index.toNat
  let count := min (board.captureLengths.getD index 0) room
  { words := (board.captures.getD index []).take count, count }

/-- The hardware stores edges in the memory of a channel. Nothing happens unless the stream of the
channel was last started to receive. -/
def store (board : Board) (channel : Nat) (edges : List UInt32) : Board :=
  match board.receiving.getD channel none with
  | none => board
  | some count =>
    { board with captures := board.captures.modify channel (overlay (edges.take count)) }

end Board

end Rotor

import Rotor.Link.Run
import Rotor.Notch.Filter

/-!
# The control loop

One turn of the control loop takes in the replies of the motors, retunes the notches by them, and
sends the next frame. Then the transfers complete, and the samples of the turn pass the notches.
-/

namespace Rotor

/-- A link and the filter that follows its telemetry. -/
structure Loop where
  link : Link
  filter : Filter

namespace Loop

/-- One turn: the frame begins, the filter takes in the telemetry, every motor is written, and the
frame ends. -/
def turn (loop : Loop) (throttles : Nat → UInt16) : Except Fault (Loop × List Call) := do
  let (begun, received) := loop.link.beginFrame
  let filter := loop.filter.update begun.telemetryOf
  let (link, sent) ←
    begun.run (Link.writeOps begun.motorCount throttles ++ [.endFrame])
  return ({ link, filter }, received ++ sent)

/-- Completes the transfers of a turn. -/
def exchange (loop : Loop) (replies : Nat → Option Capture) : Loop × List Call :=
  let (link, calls) := loop.link.exchange replies
  ({ loop with link }, calls)

/-- Passes one sample on every axis, from axis `first` on. -/
def passAxes (filter : Filter) (signal : Signal) (first : Nat) :
    List Float32 → List Float32 × Filter
  | [] => ([], filter)
  | value :: rest =>
    let (output, next) := filter.apply signal first value
    let (outputs, last) := passAxes next signal (first + 1) rest
    (output :: outputs, last)

/-- Passes the gyro samples of a turn, one for each axis, and then passes the results as D-term
samples. -/
def pass (loop : Loop) (gyro : List Float32) : List Float32 × List Float32 × Loop :=
  let (gyroOut, gyroPassed) := passAxes loop.filter .gyro 0 gyro
  let (dtermOut, dtermPassed) := passAxes gyroPassed .dterm 0 gyroOut
  (gyroOut, dtermOut, { loop with filter := dtermPassed })

/-- What a round of the control loop leaves. -/
structure Round where
  loop : Loop
  /-- The gyro outputs, one for each axis. -/
  gyro : List Float32
  /-- The D-term outputs, one for each axis. -/
  dterm : List Float32
  /-- The calls that were made. -/
  calls : List Call

/-- One round: a turn, the transfers after it, and the samples. -/
def round (loop : Loop) (throttles : Nat → UInt16) (replies : Nat → Option Capture)
    (samples : List Float32) : Except Fault Round := do
  let (turned, sent) ← loop.turn throttles
  let (exchanged, received) := turned.exchange replies
  let (gyro, dterm, last) := exchanged.pass samples
  return { loop := last, gyro, dterm, calls := sent ++ received }

end Loop

end Rotor

import Rotor.Command.Basic

/-!
# The command queue

Commands wait in a queue of at most eight entries and are sent in order of arrival. The head of the
queue is in a delay, or is active: then the motors send it in place of their throttle. All delays
count motor frames, and a frame that falls into a delay is held back.

`Queue.tick` moves the queue by one motor frame. `Queue.frame` adds what one motor sends in it.
-/

namespace Rotor

/-- The stage of a queued command, with the frames that a delay has left. -/
inductive Stage
  /-- A delay before the first repeat. -/
  | startDelay (frames : Nat)
  /-- The command replaces the throttle. -/
  | active
  /-- A delay after a repeat. -/
  | postDelay (frames : Nat)
  deriving DecidableEq, Repr, Inhabited

/-- A command in the queue. -/
structure Entry where
  /-- The motors that the command goes to. -/
  target : Target
  /-- What is sent. -/
  command : Command
  /-- The stage that the command is in. -/
  stage : Stage
  /-- The repeats that are still to be sent. -/
  repeatsLeft : Nat
  deriving DecidableEq, Repr, Inhabited

/-- A queue of commands, advanced once for each motor frame. -/
structure Queue where
  /-- The time from one motor frame to the next, in microseconds. -/
  frameMicros : Nat
  /-- The commands in order of arrival. -/
  entries : List Entry
  deriving DecidableEq, Repr, Inhabited

namespace Queue

/-- The greatest number of commands in a queue. -/
def capacity : Nat := 8

/-- An empty queue for motor frames of the given length, where zero counts as one microsecond. -/
def empty (frameMicros : Nat) : Queue where
  frameMicros := max frameMicros 1
  entries := []

/-- The number of whole frames in a delay, but at least one. -/
def framesIn (queue : Queue) (micros : Nat) : Nat :=
  max (micros / queue.frameMicros) 1

/-- Whether a command is queued. -/
def isBusy (queue : Queue) : Bool :=
  !queue.entries.isEmpty

/-- Whether the head of the queue replaces the throttle. -/
def isActive (queue : Queue) : Bool :=
  match queue.entries with
  | head :: _ => head.stage == .active
  | [] => false

/-- Adds a command at the end. The flag tells whether there was room for it. -/
def enqueue (queue : Queue) (target : Target) (command : Command) : Bool × Queue :=
  if queue.entries.length < capacity then
    let delay := queue.framesIn (if queue.isBusy then Command.gapMicros else Command.leadMicros)
    let entry : Entry :=
      { target, command, stage := .startDelay delay, repeatsLeft := command.repeats }
    (true, { queue with entries := queue.entries ++ [entry] })
  else
    (false, queue)

/-- What `motor` sends while the head is active: the command, or motor stop for other motors. -/
def valueFor (queue : Queue) (motor : Nat) : UInt16 :=
  match queue.entries with
  | head :: _ =>
    if head.stage = .active ∧ head.target.includes motor then
      head.command.value
    else
      Command.motorStop.value
  | [] => Command.motorStop.value

/-- A queue whose head has spent one more frame in a delay of `frames` frames, and whether that
frame may go out. The frame that ends a delay is held back, since it was written before the command
became active; only the frame that empties the queue goes out. -/
def countDown (queue : Queue) (head : Entry) (rest : List Entry) (frames : Nat)
    (delay : Nat → Stage) : Bool × Queue :=
  if 1 < frames then
    (false, { queue with entries := { head with stage := delay (frames - 1) } :: rest })
  else if 0 < head.repeatsLeft then
    (false, { queue with entries := { head with stage := .active } :: rest })
  else
    (rest.isEmpty, { queue with entries := rest })

/-- Whether this frame may go out, and the queue with this frame counted against a delay. -/
def release (queue : Queue) : Bool × Queue :=
  match queue.entries with
  | [] => (true, queue)
  | head :: rest =>
    match head.stage with
    | .active => (true, queue)
    | .startDelay frames => queue.countDown head rest frames .startDelay
    | .postDelay frames => queue.countDown head rest frames .postDelay

/-- The queue after a frame went out: an active head has one repeat less and goes into a delay. -/
def noteSent (queue : Queue) : Queue :=
  match queue.entries with
  | [] => queue
  | head :: rest =>
    if head.stage = .active then
      let repeatsLeft := head.repeatsLeft - 1
      let micros := if 0 < repeatsLeft then Command.gapMicros else head.command.restMicros
      let sent := { head with stage := .postDelay (queue.framesIn micros), repeatsLeft }
      { queue with entries := sent :: rest }
    else
      queue

/-- One motor frame: whether it goes out, and the queue after it. -/
def tick (queue : Queue) : Bool × Queue :=
  match queue.release with
  | (true, released) => (true, released.noteSent)
  | (false, held) => (false, held)

/-- One motor frame as `motor` sees it: the value that it sends, none for a frame that is held back,
and the queue after it. -/
def frame (queue : Queue) (motor : Nat) (throttle : UInt16) : Option UInt16 × Queue :=
  let value := if queue.isActive then queue.valueFor motor else throttle
  match queue.tick with
  | (true, next) => (some value, next)
  | (false, next) => (none, next)

/-- The values that `motor` sends in `count` motor frames, none for a frame that is held back, and
the queue after them. -/
def frames (queue : Queue) (motor : Nat) (throttle : UInt16) :
    Nat → List (Option UInt16) × Queue
  | 0 => ([], queue)
  | count + 1 =>
    let (value, next) := queue.frame motor throttle
    let (values, last) := frames next motor throttle count
    (value :: values, last)

end Queue

end Rotor

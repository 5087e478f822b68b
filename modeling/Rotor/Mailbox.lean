/-!
# The capture mailbox

A place for one capture on its way from the completion interrupt to the control loop. The interrupt
deposits a capture and the loop collects it. A deposit begins by taking the empty box and ends by
declaring it full, and nobody else gets at the box in between: a half written capture is never seen,
and a capture that waits is never overwritten.

`Mailbox.runAll` plays any sequence of calls, also of those that come in while a deposit is being
written.
-/

namespace Rotor

/-- What the hardware delivers when it is asked for a capture: the words it writes to the front of
the buffer, and the number of words that it claims to have written. -/
structure Capture where
  words : List UInt32
  count : Nat
  deriving DecidableEq, Repr, Inhabited

namespace Capture

/-- A capture that claims exactly the words it holds. -/
def ofWords (words : List UInt32) : Capture where
  words
  count := words.length

/-- The capture of hardware that has nothing to deliver. -/
def nothing : Capture := .ofWords []

end Capture

/-- Writes `words` over the front of a buffer. The words that do not fit are dropped. -/
def overlay (words buffer : List UInt32) : List UInt32 :=
  words.take buffer.length ++ buffer.drop words.length

@[simp]
theorem length_overlay (words buffer : List UInt32) :
    (overlay words buffer).length = buffer.length := by
  simp [overlay]; omega

/-- Who has the mailbox. -/
inductive Phase
  /-- Nobody: a deposit may begin. -/
  | empty
  /-- A deposit that is still being written. -/
  | filling
  /-- Nobody: a capture waits for collection. -/
  | full
  deriving DecidableEq, Repr, Inhabited

/-- A place for one capture. -/
structure Mailbox where
  phase : Phase
  /-- The number of words that count in a waiting capture. -/
  count : Nat
  /-- The buffer. Words of earlier captures stay behind a shorter one. -/
  buffer : List UInt32
  deriving DecidableEq, Repr, Inhabited

namespace Mailbox

/-- The number of words in the buffer of a mailbox. -/
def capacity : Nat := 32

/-- A mailbox that never held a capture. -/
def new : Mailbox where
  phase := .empty
  count := 0
  buffer := List.replicate capacity 0

/-- Whether a capture waits. -/
def isFull (box : Mailbox) : Bool :=
  box.phase == .full

/-- Takes the box for a deposit, which only an empty box allows. -/
def beginDeposit? (box : Mailbox) : Option Mailbox :=
  if box.phase = .empty then some { box with phase := .filling } else none

/-- Ends a deposit: the capture is in the buffer and waits. A count past the end of the buffer is
cut to its length. -/
def endDeposit (box : Mailbox) (capture : Capture) : Mailbox where
  phase := .full
  count := min capture.count capacity
  buffer := overlay capture.words box.buffer

/-- A whole deposit. The flag tells whether the box was free for it. -/
def deposit (box : Mailbox) (capture : Capture) : Bool × Mailbox :=
  match box.beginDeposit? with
  | some taken => (true, taken.endDeposit capture)
  | none => (false, box)

/-- Copies a waiting capture to the front of `out` and empties the box. The answer is the number of
words copied, none where no capture waits, and the new `out`. -/
def collect (box : Mailbox) (out : List UInt32) : Option Nat × List UInt32 × Mailbox :=
  if box.phase = .full then
    let count := min box.count out.length
    (some count, overlay (box.buffer.take count) out, { box with phase := .empty })
  else
    (none, out, box)

/-- Drops a waiting capture. A deposit that is being written stays. -/
def discard (box : Mailbox) : Mailbox :=
  if box.phase = .full then { box with phase := .empty } else box

/-- A call on a mailbox. -/
inductive Action
  /-- A deposit, and the calls that come in after its words are written and before it ends. -/
  | deposit (capture : Capture) (during : List Action)
  /-- A collection into the given words. -/
  | collect (out : List UInt32)
  /-- A discard. -/
  | discard

/-- What a call on a mailbox answers. -/
inductive Answer
  /-- Whether a deposit was accepted, and the answers of the calls that came in during it. -/
  | deposit (accepted : Bool) (during : List Answer) (isFull : Bool)
  /-- The number of words collected, and the words afterwards. -/
  | collect (count : Option Nat) (out : List UInt32) (isFull : Bool)
  /-- The answer to a discard. -/
  | discard (isFull : Bool)

mutual

/-- Performs one call. Its answer also tells whether a capture waits afterwards. A refused deposit
performs none of the calls that would have come in during it. -/
def run (box : Mailbox) : Action → Answer × Mailbox
  | .deposit capture during =>
    match box.beginDeposit? with
    | some taken =>
      let (answers, filled) := runAll taken during
      let next := filled.endDeposit capture
      (.deposit true answers next.isFull, next)
    | none => (.deposit false [] box.isFull, box)
  | .collect out =>
    let (count, words, next) := box.collect out
    (.collect count words next.isFull, next)
  | .discard =>
    let next := box.discard
    (.discard next.isFull, next)

/-- Performs calls one after the other. -/
def runAll (box : Mailbox) : List Action → List Answer × Mailbox
  | [] => ([], box)
  | action :: rest =>
    let (answer, next) := run box action
    let (answers, last) := runAll next rest
    (answer :: answers, last)

end

end Mailbox

end Rotor

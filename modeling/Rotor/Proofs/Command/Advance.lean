import Rotor.Proofs.Command.Release

/-!
# What a motor frame does to the command queue

A motor frame has five outcomes for a queue: nothing is queued, the head waits in a delay, the delay
of the head is over and the head becomes active, the active head is sent, or the rest after its last
repeat is over and the head leaves. `Queue.Advance` lists them with all that changes, and
`Queue.advance_tick` says that a sound queue has no other. Whatever is to be known of a frame follows
from it by cases.

A run of a queue is a list of events in which commands arrive and motor frames pass.
-/

namespace Rotor

namespace Stage

/-- The frames that a delay has left, none for an active command. -/
def delay : Stage → Nat
  | startDelay frames => frames
  | active => 0
  | postDelay frames => frames

/-- The same stage one frame later, where the delay is longer than that. -/
def pass : Stage → Stage
  | startDelay frames => startDelay (frames - 1)
  | active => active
  | postDelay frames => postDelay (frames - 1)

end Stage

namespace Entry.Sound

variable {entry : Entry}

theorem active_of_delay (sound : entry.Sound) (none : entry.stage.delay < 1) :
    entry.stage = .active := by
  cases stage : entry.stage with
  | active => rfl
  | startDelay frames =>
      simp only [Entry.Sound, stage, Stage.delay] at sound none
      omega
  | postDelay frames =>
      simp only [Entry.Sound, stage, Stage.delay] at sound none
      omega

theorem due_of_active (sound : entry.Sound) (active : entry.stage = .active) :
    0 < entry.repeatsLeft := by
  simpa [Entry.Sound, active] using sound

/-- Without repeats left, a delay can only be the rest after the last repeat. -/
theorem resting_of_done (sound : entry.Sound) (ended : entry.stage.delay = 1)
    (done : entry.repeatsLeft = 0) : entry.stage = .postDelay 1 := by
  cases stage : entry.stage with
  | active => simp [stage, Stage.delay] at ended
  | startDelay frames =>
      simp only [Entry.Sound, stage] at sound
      omega
  | postDelay frames =>
      simp only [stage, Stage.delay] at ended
      rw [ended]

end Entry.Sound

namespace Queue

variable {queue : Queue}

/-- The active head after a frame that carried it. -/
def afterRepeat (queue : Queue) (head : Entry) : Entry :=
  let repeatsLeft := head.repeatsLeft - 1
  let micros := if 0 < repeatsLeft then Command.gapMicros else head.command.restMicros
  { head with stage := .postDelay (queue.framesIn micros), repeatsLeft }

/-- The outcomes of a motor frame: whether it goes out, and the queue after it. -/
inductive Advance (queue : Queue) : Bool → Queue → Prop
  | idle (entries : queue.entries = []) : Advance queue true queue
  | waits {head : Entry} {rest : List Entry} (entries : queue.entries = head :: rest)
      (lasts : 1 < head.stage.delay) :
      Advance queue false { queue with entries := { head with stage := head.stage.pass } :: rest }
  | wakes {head : Entry} {rest : List Entry} (entries : queue.entries = head :: rest)
      (ended : head.stage.delay = 1) (due : 0 < head.repeatsLeft) :
      Advance queue false { queue with entries := { head with stage := .active } :: rest }
  | sends {head : Entry} {rest : List Entry} (entries : queue.entries = head :: rest)
      (active : head.stage = .active) (due : 0 < head.repeatsLeft) :
      Advance queue true { queue with entries := queue.afterRepeat head :: rest }
  | leaves {head : Entry} {rest : List Entry} (entries : queue.entries = head :: rest)
      (ended : head.stage = .postDelay 1) (done : head.repeatsLeft = 0) :
      Advance queue rest.isEmpty { queue with entries := rest }

theorem tick_of_held {next : Queue} (released : queue.release = (false, next)) :
    queue.tick = (false, next) := by
  simp [tick, released]

theorem tick_of_released {next : Queue} (released : queue.release = (true, next)) :
    queue.tick = (true, next.noteSent) := by
  simp [tick, released]

section Release

variable {head : Entry} {rest : List Entry}

theorem release_of_waits (entries : queue.entries = head :: rest) (lasts : 1 < head.stage.delay) :
    queue.release =
      (false, { queue with entries := { head with stage := head.stage.pass } :: rest }) := by
  cases stage : head.stage with
  | active => simp [stage, Stage.delay] at lasts
  | startDelay frames =>
      simp only [stage, Stage.delay] at lasts
      simp [release, countDown, entries, stage, lasts, Stage.pass]
  | postDelay frames =>
      simp only [stage, Stage.delay] at lasts
      simp [release, countDown, entries, stage, lasts, Stage.pass]

theorem release_of_wakes (entries : queue.entries = head :: rest) (ended : head.stage.delay = 1)
    (due : 0 < head.repeatsLeft) :
    queue.release = (false, { queue with entries := { head with stage := .active } :: rest }) := by
  cases stage : head.stage with
  | active => simp [stage, Stage.delay] at ended
  | startDelay frames =>
      simp only [stage, Stage.delay] at ended
      simp [release, countDown, entries, stage, ended, due]
  | postDelay frames =>
      simp only [stage, Stage.delay] at ended
      simp [release, countDown, entries, stage, ended, due]

theorem tick_of_sends (entries : queue.entries = head :: rest) (active : head.stage = .active) :
    queue.tick = (true, { queue with entries := queue.afterRepeat head :: rest }) := by
  have released : queue.release = (true, queue) := by simp [release, entries, active]
  rw [tick_of_released released]
  simp [noteSent, afterRepeat, entries, active]

/-- A head that leaves holds the frame back for the sake of those behind it. -/
theorem tick_of_leaves (entries : queue.entries = head :: rest) (ended : head.stage = .postDelay 1)
    (done : head.repeatsLeft = 0) :
    queue.tick = (rest.isEmpty, { queue with entries := rest }) := by
  have released : queue.release = (rest.isEmpty, { queue with entries := rest }) := by
    simp [release, countDown, entries, ended, done]
  cases rest with
  | nil => exact tick_of_released released
  | cons next others => exact tick_of_held released

end Release

/-- A frame of a sound queue has one of the five outcomes. -/
theorem advance_tick (sound : queue.Sound) : queue.Advance queue.tick.1 queue.tick.2 := by
  cases entries : queue.entries with
  | nil =>
      have released : queue.release = (true, queue) := by simp [release, entries]
      have quiet : queue.noteSent = queue := by simp [noteSent, entries]
      rw [tick_of_released released, quiet]
      exact .idle entries
  | cons head rest =>
      have headSound : head.Sound := sound head (by simp [entries])
      -- No delay of a sound entry is over, so a head without one is active. In the last frame of a
      -- delay the repeats that are left decide whether the head becomes active or leaves.
      rcases Nat.lt_trichotomy head.stage.delay 1 with none | ended | lasts
      · have active : head.stage = .active := headSound.active_of_delay none
        have due : 0 < head.repeatsLeft := headSound.due_of_active active
        rw [tick_of_sends entries active]
        exact .sends entries active due
      · rcases Nat.eq_zero_or_pos head.repeatsLeft with done | due
        · have resting : head.stage = .postDelay 1 := headSound.resting_of_done ended done
          rw [tick_of_leaves entries resting done]
          exact .leaves entries resting done
        · rw [tick_of_held (release_of_wakes entries ended due)]
          exact .wakes entries ended due
      · rw [tick_of_held (release_of_waits entries lasts)]
        exact .waits entries lasts

theorem isActive_of_entries {head : Entry} {rest : List Entry}
    (entries : queue.entries = head :: rest) :
    queue.isActive = true ↔ head.stage = .active := by
  simp [isActive, entries]

theorem isActive_of_delay {head : Entry} {rest : List Entry}
    (entries : queue.entries = head :: rest) (delayed : 0 < head.stage.delay) :
    queue.isActive = false := by
  rw [← Bool.not_eq_true, isActive_of_entries entries]
  intro active
  simp [active, Stage.delay] at delayed

theorem Advance.frameMicros_eq {out : Bool} {next : Queue} (advance : queue.Advance out next) :
    next.frameMicros = queue.frameMicros := by
  cases advance <;> rfl

theorem frame_eq (queue : Queue) (motor : Nat) (throttle : UInt16) :
    queue.frame motor throttle =
      (if queue.tick.1 then
        some (if queue.isActive then queue.valueFor motor else throttle)
      else none, queue.tick.2) := by
  simp only [frame]
  rcases queue.tick with ⟨out, next⟩
  cases out <;> rfl

/-- What can happen to a queue. -/
inductive Event
  /-- A command arrives. -/
  | enqueue (target : Target) (command : Command)
  /-- A motor frame passes, with a throttle value for each motor. -/
  | frame (throttles : Nat → UInt16)

/-- The queue after an event. -/
def react (queue : Queue) : Event → Queue
  | .enqueue target command => (queue.enqueue target command).2
  | .frame _ => queue.tick.2

/-- The queue after a list of events. -/
def after (queue : Queue) (events : List Event) : Queue :=
  events.foldl react queue

theorem sound_react (sound : queue.Sound) (event : Event) : (queue.react event).Sound := by
  cases event with
  | enqueue target command => exact sound_enqueue sound target command
  | frame throttles => exact sound_tick sound

theorem sound_after (sound : queue.Sound) (events : List Event) : (queue.after events).Sound := by
  induction events generalizing queue with
  | nil => exact sound
  | cons event rest ih => exact ih (sound_react sound event)

theorem frameMicros_react (sound : queue.Sound) (event : Event) :
    (queue.react event).frameMicros = queue.frameMicros := by
  cases event with
  | enqueue target command =>
      simp only [react, enqueue]
      split <;> rfl
  | frame throttles => exact (advance_tick sound).frameMicros_eq

theorem frameMicros_after (sound : queue.Sound) (events : List Event) :
    (queue.after events).frameMicros = queue.frameMicros := by
  induction events generalizing queue with
  | nil => rfl
  | cons event rest ih =>
      have later := ih (sound_react sound event)
      exact later.trans (frameMicros_react sound event)

end Queue

end Rotor

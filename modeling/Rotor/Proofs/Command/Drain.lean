import Mathlib.Algebra.Ring.Nat
import Rotor.Proofs.Command.Advance

/-!
# How long the command queue takes

Every motor frame takes a queue that is not empty one frame nearer to its end, whatever stage its
head is in. `Queue.weight` counts the frames: for each repeat the frame that carries it, after each
repeat but the last the gap and the frame that ends it, then the rest of the command, and the delay
that is running. A queue that takes no more commands is empty after just that many frames
(`Queue.drains_on_time`).
-/

namespace Rotor

namespace Queue

variable {queue : Queue}

/-- The frames that an entry holds the head of the queue from the time that it becomes active. -/
def activeFrames (queue : Queue) (entry : Entry) : Nat :=
  1 + (entry.repeatsLeft - 1) * (queue.framesIn Command.gapMicros + 1) +
    queue.framesIn entry.command.restMicros

/-- The frames that an entry is still going to hold the head of the queue. -/
def entryWeight (queue : Queue) (entry : Entry) : Nat :=
  match entry.stage with
  | .startDelay frames => frames + queue.activeFrames entry
  | .active => queue.activeFrames entry
  | .postDelay frames =>
      if entry.repeatsLeft = 0 then frames else frames + queue.activeFrames entry

/-- The frames until the queue is empty. -/
def weight (queue : Queue) : Nat :=
  (queue.entries.map queue.entryWeight).sum

section Entries

variable {entry : Entry}

theorem entryWeight_pos (sound : entry.Sound) : 0 < queue.entryWeight entry := by
  simp only [entryWeight, activeFrames]
  cases stage : entry.stage with
  | startDelay frames => simp only; omega
  | active => simp only; omega
  | postDelay frames =>
      simp only [Entry.Sound, stage] at sound
      dsimp only
      split <;> omega

/-- A frame in a delay that goes on. -/
theorem entryWeight_pass (queue : Queue) (lasts : 1 < entry.stage.delay) :
    queue.entryWeight { entry with stage := entry.stage.pass } + 1 = queue.entryWeight entry := by
  cases stage : entry.stage with
  | startDelay frames =>
      simp only [stage, Stage.delay] at lasts
      simp only [entryWeight, activeFrames, stage, Stage.pass]
      omega
  | active => simp [stage, Stage.delay] at lasts
  | postDelay frames =>
      simp only [stage, Stage.delay] at lasts
      simp only [entryWeight, activeFrames, stage, Stage.pass]
      split <;> omega

/-- The frame that ends a delay before a repeat. -/
theorem entryWeight_wake (queue : Queue) (ended : entry.stage.delay = 1)
    (due : 0 < entry.repeatsLeft) :
    queue.entryWeight { entry with stage := .active } + 1 = queue.entryWeight entry := by
  cases stage : entry.stage with
  | startDelay frames =>
      simp only [stage, Stage.delay] at ended
      simp only [entryWeight, activeFrames, stage]
      omega
  | active => simp [stage, Stage.delay] at ended
  | postDelay frames =>
      simp only [stage, Stage.delay] at ended
      have unfinished : entry.repeatsLeft ≠ 0 := by omega
      simp only [entryWeight, activeFrames, stage, if_neg unfinished]
      omega

/-- The frame that carries a repeat. After the last one the rest begins, after any other the gap. -/
theorem entryWeight_afterRepeat (queue : Queue) (active : entry.stage = .active)
    (due : 0 < entry.repeatsLeft) :
    queue.entryWeight (queue.afterRepeat entry) + 1 = queue.entryWeight entry := by
  rcases Nat.exists_eq_add_of_lt due with ⟨left, repeats⟩
  simp only [Nat.zero_add] at repeats
  cases left with
  | zero =>
      simp [entryWeight, afterRepeat, activeFrames, active, repeats]
      omega
  | succ later =>
      simp [entryWeight, afterRepeat, activeFrames, active, repeats, Nat.succ_mul]
      omega

end Entries

theorem entryWeight_withEntries (queue : Queue) (entries : List Entry) :
    ({ queue with entries } : Queue).entryWeight = queue.entryWeight := rfl

theorem weight_eq_zero_iff (sound : queue.Sound) : queue.weight = 0 ↔ queue.entries = [] := by
  cases entries : queue.entries with
  | nil => simp [weight, entries]
  | cons head rest =>
      have positive : 0 < queue.entryWeight head := entryWeight_pos (sound head (by simp [entries]))
      simp only [weight, entries, List.map_cons, List.sum_cons, reduceCtorEq, iff_false]
      omega

/-- Every motor frame takes one frame off a queue that is not empty. -/
theorem Advance.weight_eq {out : Bool} {next : Queue} (advance : queue.Advance out next) :
    next.weight = queue.weight - 1 := by
  cases advance with
  | idle entries => simp [weight, entries]
  | waits entries lasts =>
      have step := entryWeight_pass queue lasts
      simp only [weight, entryWeight_withEntries, entries, List.map_cons, List.sum_cons]
      omega
  | wakes entries ended due =>
      have step := entryWeight_wake queue ended due
      simp only [weight, entryWeight_withEntries, entries, List.map_cons, List.sum_cons]
      omega
  | sends entries active due =>
      have step := entryWeight_afterRepeat queue active due
      simp only [weight, entryWeight_withEntries, entries, List.map_cons, List.sum_cons]
      omega
  | @leaves head rest entries ended done =>
      have last : queue.entryWeight head = 1 := by simp [entryWeight, ended, done]
      simp only [weight, entryWeight_withEntries, entries, List.map_cons, List.sum_cons]
      omega

theorem weight_tick (sound : queue.Sound) : queue.tick.2.weight = queue.weight - 1 :=
  (advance_tick sound).weight_eq

/-- A frame that leaves the queue empty goes out and carries no command. -/
theorem Advance.out_of_empties {out : Bool} {next : Queue} (advance : queue.Advance out next)
    (empties : next.entries = []) : out = true ∧ queue.isActive = false := by
  cases advance with
  | idle entries => simp [isActive, entries]
  | waits entries lasts => simp at empties
  | wakes entries ended due => simp at empties
  | sends entries active due => simp at empties
  | @leaves head rest entries ended done =>
      have last : rest = [] := empties
      exact ⟨by simp [last], isActive_of_delay entries (by simp [ended, Stage.delay])⟩

/-- From the last frame of the queue on, the motor sends its throttle. -/
theorem frame_of_weight_le (sound : queue.Sound) (light : queue.weight ≤ 1) (motor : Nat)
    (throttle : UInt16) : (queue.frame motor throttle).1 = some throttle := by
  have empties : queue.tick.2.entries = [] := by
    rw [← weight_eq_zero_iff (sound_tick sound), weight_tick sound]
    omega
  rcases (advance_tick sound).out_of_empties empties with ⟨out, inactive⟩
  simp [frame_eq, out, inactive]

section Frames

variable {motor : Nat} {throttle : UInt16}

theorem frame_snd (queue : Queue) (motor : Nat) (throttle : UInt16) :
    (queue.frame motor throttle).2 = queue.tick.2 := by
  rw [frame_eq]

theorem frames_succ (queue : Queue) (motor : Nat) (throttle : UInt16) (count : Nat) :
    queue.frames motor throttle (count + 1) =
      ((queue.frame motor throttle).1 :: (queue.tick.2.frames motor throttle count).1,
        (queue.tick.2.frames motor throttle count).2) := by
  simp [frames, frame_snd]

theorem sound_frames (sound : queue.Sound) (count : Nat) :
    (queue.frames motor throttle count).2.Sound := by
  induction count generalizing queue with
  | zero => exact sound
  | succ count ih =>
      rw [frames_succ]
      exact ih (sound_tick sound)

theorem weight_frames (sound : queue.Sound) (count : Nat) :
    (queue.frames motor throttle count).2.weight = queue.weight - count := by
  induction count generalizing queue with
  | zero => rfl
  | succ count ih =>
      rw [frames_succ, ih (sound_tick sound), weight_tick sound]
      omega

/-- After the last frame of the queue every frame goes out with the throttle. -/
theorem getElem?_frames (sound : queue.Sound) {index count : Nat} (inRun : index < count)
    (late : queue.weight ≤ index + 1) :
    (queue.frames motor throttle count).1[index]? = some (some throttle) := by
  induction count generalizing queue index with
  | zero => omega
  | succ count ih =>
      rw [frames_succ]
      cases index with
      | zero => simpa using frame_of_weight_le sound late motor throttle
      | succ index =>
          -- A frame earlier in the run is a frame less on the weight.
          rw [List.getElem?_cons_succ]
          apply ih (sound_tick sound)
          · omega
          · rw [weight_tick sound]
            omega

end Frames

/-- In every queue that commands and frames can lead to, no delay is over already and every command
that waits for its turn has a repeat left, so each frame takes exactly one frame off the weight.
Without further commands the queue is empty after as many frames as it weighs and not before, and
the last of them as well as all later frames go out with the throttle. -/
theorem drains_on_time (frameMicros : Nat) (events : List Event) :
    let queue := (empty frameMicros).after events
    (∀ micros, queue.framesIn micros = max 1 (micros / max 1 frameMicros)) ∧
    (∀ entry ∈ queue.entries, match entry.stage with
      | .startDelay frames => 1 ≤ frames ∧ 1 ≤ entry.repeatsLeft
      | .active => 1 ≤ entry.repeatsLeft
      | .postDelay frames => 1 ≤ frames) ∧
    (queue.entries ≠ [] → queue.tick.2.weight + 1 = queue.weight) ∧
    (queue.weight = 0 ↔ queue.entries = []) ∧
    ∀ motor throttle count,
      ((queue.frames motor throttle count).2.entries = [] ↔ queue.weight ≤ count) ∧
      ∀ index < count, queue.weight ≤ index + 1 →
        (queue.frames motor throttle count).1[index]? = some (some throttle) := by
  intro queue
  have sound : queue.Sound := sound_after (sound_empty frameMicros) events
  refine ⟨?_, sound, ?_, weight_eq_zero_iff sound, ?_⟩
  · intro micros
    have length : queue.frameMicros = max frameMicros 1 :=
      frameMicros_after (sound_empty frameMicros) events
    rw [framesIn, length, Nat.max_comm, Nat.max_comm frameMicros]
  · intro busy
    have positive : queue.weight ≠ 0 := mt (weight_eq_zero_iff sound).mp busy
    have step := weight_tick sound
    omega
  · intro motor throttle count
    constructor
    · rw [← weight_eq_zero_iff (sound_frames sound count), weight_frames sound count]
      omega
    · intro index inRun late
      exact getElem?_frames sound inRun late

/-- A beacon at one frame each millisecond: ten frames of delay, one that carries it, and the
hundred of its tone. -/
example : ((empty 1000).enqueue .all .beacon1).2.weight = 111 := by decide

end Queue

end Rotor

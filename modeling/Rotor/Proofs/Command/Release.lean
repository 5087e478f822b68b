import Mathlib.Data.List.Basic
import Rotor.Command.Queue

/-!
# Which frames the command queue lets out

A queue holds a frame back while its head is in a delay. `Queue.tick_fst_iff` says which frames go
out: those of an empty queue, those that carry an active command, and the one that ends the rest of
the last command. Commands that come in later never change what the head does in the present frame.

The statement needs that no delay is ever over already, and that a command waits for its turn only
with repeats left. `Queue.Sound` is this invariant.
-/

namespace Rotor

namespace Entry

/-- A delay has a frame left, and a command that is yet to be sent has a repeat left. -/
def Sound (entry : Entry) : Prop :=
  match entry.stage with
  | .startDelay frames => 0 < frames ∧ 0 < entry.repeatsLeft
  | .active => 0 < entry.repeatsLeft
  | .postDelay frames => 0 < frames

end Entry

namespace Queue

variable {queue : Queue}

/-- A queue all of whose entries are sound. -/
def Sound (queue : Queue) : Prop :=
  ∀ entry ∈ queue.entries, entry.Sound

/-- A frame may go out: nothing is queued, the head is active, or this frame ends the rest of the
last command. -/
def LetsOut (queue : Queue) : Prop :=
  queue.entries = [] ∨
    (∃ head rest, queue.entries = head :: rest ∧ head.stage = .active) ∨
    ∃ head, queue.entries = [head] ∧ head.stage = .postDelay 1 ∧ head.repeatsLeft = 0

theorem framesIn_pos (queue : Queue) (micros : Nat) : 0 < queue.framesIn micros := by
  unfold framesIn
  omega

theorem sound_empty (frameMicros : Nat) : (empty frameMicros).Sound := by
  simp [Sound, empty]

theorem sound_enqueue (sound : queue.Sound) (target : Target) (command : Command) :
    (queue.enqueue target command).2.Sound := by
  unfold enqueue
  split
  · intro entry entryMem
    simp only [List.mem_append, List.mem_singleton] at entryMem
    rcases entryMem with old | rfl
    · exact sound entry old
    · exact ⟨queue.framesIn_pos _, command.repeats_pos⟩
  · exact sound

theorem sound_countDown {head : Entry} {rest : List Entry} {frames : Nat} {delay : Nat → Stage}
    (restSound : ∀ entry ∈ rest, entry.Sound)
    (delayed : 1 < frames → ({ head with stage := delay (frames - 1) } : Entry).Sound) :
    (queue.countDown head rest frames delay).2.Sound := by
  unfold countDown
  split
  · next counting => exact List.forall_mem_cons.mpr ⟨delayed counting, restSound⟩
  · split
    · next repeats => exact List.forall_mem_cons.mpr ⟨repeats, restSound⟩
    · exact restSound

theorem sound_release (sound : queue.Sound) : queue.release.2.Sound := by
  unfold release
  split
  · exact sound
  · next head rest entries =>
    have parts : head.Sound ∧ ∀ entry ∈ rest, entry.Sound := by
      simpa [Sound, entries] using sound
    rcases parts with ⟨headSound, restSound⟩
    split
    · exact sound
    · next frames stage =>
      apply sound_countDown restSound
      intro counting
      simp only [Entry.Sound, stage] at headSound ⊢
      omega
    · next frames stage =>
      apply sound_countDown restSound
      intro counting
      simp only [Entry.Sound]
      omega

theorem sound_noteSent (sound : queue.Sound) : queue.noteSent.Sound := by
  unfold noteSent
  split
  · exact sound
  · next head rest entries =>
    have restSound : ∀ entry ∈ rest, entry.Sound := by
      intro entry entryMem
      exact sound entry (by simp [entries, entryMem])
    split
    · exact List.forall_mem_cons.mpr ⟨queue.framesIn_pos _, restSound⟩
    · exact sound

theorem tick_eq (queue : Queue) :
    queue.tick = (queue.release.1,
      if queue.release.1 then queue.release.2.noteSent else queue.release.2) := by
  unfold tick
  rcases queue.release with ⟨released, next⟩
  cases released <;> rfl

theorem sound_tick (sound : queue.Sound) : queue.tick.2.Sound := by
  rw [tick_eq]
  dsimp only
  split
  · exact sound_noteSent (sound_release sound)
  · exact sound_release sound

/-- A frame goes out exactly when the queue lets it out. -/
theorem tick_fst_iff (sound : queue.Sound) : queue.tick.1 = true ↔ queue.LetsOut := by
  rw [tick_eq]
  unfold release LetsOut
  split
  · next entries => simp [entries]
  · next head rest entries =>
    have headSound : head.Sound := sound head (by simp [entries])
    split
    · next stage => simp [entries, stage]
    · next frames stage =>
      simp only [Entry.Sound, stage] at headSound
      simp only [entries, countDown]
      split <;> simp_all
    · next frames stage =>
      simp only [Entry.Sound, stage] at headSound
      simp only [entries, countDown]
      split
      · simp_all
        omega
      · obtain rfl : frames = 1 := by omega
        rcases Nat.eq_zero_or_pos head.repeatsLeft with none | some
        · simp [none, stage]
        · simp [some, stage]
          omega

/-- The head of the queue, where it is active. -/
def active? (queue : Queue) : Option Entry :=
  queue.entries.head?.filter fun head => head.stage = .active

theorem isActive_eq (queue : Queue) : queue.isActive = queue.active?.isSome := by
  unfold isActive active?
  split
  · next head rest entries => cases active : head.stage <;> simp [entries, active]
  · next entries => simp [entries]

theorem valueFor_of_active {head : Entry} (active : queue.active? = some head) (motor : Nat) :
    queue.valueFor motor = if head.target.includes motor then head.command.value else 0 := by
  rcases Option.filter_eq_some_iff.mp active with ⟨atHead, stage⟩
  rcases List.head?_eq_some_iff.mp atHead with ⟨rest, entries⟩
  simp only [decide_eq_true_eq] at stage
  simp [valueFor, entries, stage, Command.value]

@[simp]
theorem active?_enqueue (queue : Queue) (target : Target) (command : Command) :
    (queue.enqueue target command).2.active? = queue.active? := by
  unfold enqueue
  split
  · cases entries : queue.entries <;> simp [active?, entries]
  · rfl

end Queue

end Rotor

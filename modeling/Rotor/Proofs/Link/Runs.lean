import Mathlib.Data.List.Induction
import Rotor.Proofs.Command.Release
import Rotor.Proofs.Link.Wiring

/-!
# Runs of a sound link

`Link.Sound` is what a link needs for all its operations to do their work, and what they all keep:
the wiring is sound, every burst buffer has room for four frames, the queue is sound, and no mailbox
is left half filled. So a run of a sound link never fails (`Link.exists_run`), and a property of a
link and of what has happened to it holds after a run once every operation keeps it
(`Link.run_induction`). That it never fails needs the lanes of the motors only
(`Link.exists_run_of_lanesFit`). `Link.FrameOrder` says which operations come in the order of
frames, and `Link.order_induction` follows a run of such operations from moment to moment.
-/

namespace Rotor

namespace Mailbox

/-- Nobody is at work in the mailbox, and its buffer has its full length. -/
structure Sound (box : Mailbox) : Prop where
  idle : box.phase ≠ .filling
  full_length : box.buffer.length = capacity

theorem sound_new : new.Sound :=
  ⟨by decide, by simp [new]⟩

theorem sound_deposit {box : Mailbox} (sound : box.Sound) (capture : Capture) :
    (box.deposit capture).2.Sound := by
  unfold deposit beginDeposit?
  by_cases empty : box.phase = .empty
  · simp only [empty, if_true]
    exact ⟨by simp [endDeposit], by simp [endDeposit, sound.full_length]⟩
  · simpa [empty] using sound

/-- A deposit, accepted or not, leaves no box empty. -/
theorem phase_deposit_ne_empty (box : Mailbox) (capture : Capture) :
    (box.deposit capture).2.phase ≠ .empty := by
  unfold deposit beginDeposit?
  by_cases empty : box.phase = .empty
  · simp [empty, endDeposit]
  · simp [empty]

theorem sound_collect {box : Mailbox} (sound : box.Sound) (out : List UInt32) :
    (box.collect out).2.2.Sound := by
  unfold collect
  split
  · exact ⟨by simp, sound.full_length⟩
  · exact sound

/-- Whole deposits and collections keep a property of a mailbox. -/
structure Lasting (holds : Mailbox → Prop) : Prop where
  deposit : ∀ {box}, holds box → ∀ capture, holds (box.deposit capture).2
  collect : ∀ {box}, holds box → ∀ out, holds (box.collect out).2.2

theorem lasting_sound : Lasting Sound :=
  ⟨sound_deposit, sound_collect⟩

end Mailbox

namespace Link

/-- Where an operation falls: between two frames, or within one. -/
inductive Moment
  | between
  | within
  deriving DecidableEq, Repr

/-- The moment after an operation, none if the operation does not belong there. Transfers complete
between frames, and commands may be queued at any moment. -/
def Moment.next : Moment → Op → Option Moment
  | .between, .beginFrame => some .within
  | .between, .transferDone _ _ => some .between
  | .within, .write _ _ => some .within
  | .within, .endFrame => some .between
  | moment, .send _ _ => some moment
  | _, _ => none

/-- At which moment an operation belongs, and which one comes after it. -/
theorem Moment.of_next {moment after : Moment} {op : Op} (order : moment.next op = some after) :
    match op with
    | .beginFrame => moment = .between ∧ after = .within
    | .write _ _ => moment = .within ∧ after = .within
    | .endFrame => moment = .within ∧ after = .between
    | .transferDone _ _ => moment = .between ∧ after = .between
    | .send _ _ => moment = after := by
  cases op <;> cases moment <;> cases order <;> simp

/-- Operations in the order of frames. The last frame may be unfinished. -/
def FrameOrder (ops : List Op) : Prop :=
  (ops.foldlM Moment.next .between).isSome

instance (ops : List Op) : Decidable (FrameOrder ops) :=
  inferInstanceAs (Decidable (_ = true))

variable {link next last : Link} {op : Op} {ops rest : List Op} {calls more : List Call}

/-- What every operation needs and keeps. -/
structure Sound (link : Link) : Prop where
  wiring : link.wiring.Sound
  buffers : ∀ entry ∈ link.timers, entry.burst.length = TimerState.burstCapacity
  commands : link.commands.Sound
  mailboxes : ∀ {motor state}, link.motor? motor = some state → state.mailbox.Sound

section Steps

theorem Sound.index_lt (sound : link.Sound) {motor : Nat} {state : MotorState}
    (found : link.motor? motor = some state) : state.channel.index.toNat < channelsPerTimer :=
  sound.wiring.index_lt (channel?_wiring found)

/-- Every mailbox of the link is sound. -/
def SoundMailboxes (link : Link) : Prop :=
  ∀ motor state, link.motor? motor = some state → state.mailbox.Sound

theorem Sound.soundMailboxes (sound : link.Sound) : link.SoundMailboxes :=
  fun _ _ found => sound.mailboxes found

/-- Every burst buffer of the link has room for four frames. -/
def RoomyBuffers (link : Link) : Prop :=
  ∀ entry ∈ link.timers, entry.burst.length = TimerState.burstCapacity

/-- Every mailbox of the link has a property. -/
def AllMailboxes (link : Link) (holds : Mailbox → Prop) : Prop :=
  ∀ motor state, link.motor? motor = some state → holds state.mailbox

section Mailboxes

variable {holds : Mailbox → Prop}

/-- What keeps the property of each mailbox keeps that of all. -/
theorem mailbox_of_map (mailboxes : link.AllMailboxes holds) {change : MotorState → MotorState}
    {motor : Nat} {state : MotorState}
    (changes : ∀ state, holds state.mailbox → holds (change state).mailbox)
    (found : (link.motor? motor).map change = some state) : holds state.mailbox := by
  rcases Option.map_eq_some_iff.mp found with ⟨before, foundBefore, rfl⟩
  exact changes before (mailboxes motor before foundBefore)

theorem mailboxes_transferDone (lasting : Mailbox.Lasting holds)
    (mailboxes : link.AllMailboxes holds) (target : Nat) (capture : Capture) :
    (link.transferDone target capture).1.AllMailboxes holds := by
  intro motor state found
  cases targetFound : link.motor? target with
  | none =>
      rw [transferDone_of_absent targetFound] at found
      exact mailboxes motor state found
  | some targetState =>
      cases direction : targetState.direction with
      | input =>
          rw [motor?_transferDone_of_input targetFound direction] at found
          split at found
          · cases found
            exact lasting.deposit (mailboxes target targetState targetFound) _
          · exact mailboxes motor state found
      | output =>
          rw [motor?_transferDone_of_output targetFound direction] at found
          apply mailbox_of_map mailboxes _ found
          intro before beforeHolds
          split <;> exact beforeHolds

theorem mailboxes_effect (lasting : Mailbox.Lasting holds) (mailboxes : link.AllMailboxes holds)
    (effect : link.Effect op next calls) : next.AllMailboxes holds := by
  cases effect with
  | beginFrame =>
      rcases Bool.eq_false_or_eq_true link.telemetry with speaking | silent
      · intro motor state found
        rw [motor?_beginFrame speaking] at found
        apply mailbox_of_map mailboxes _ found
        intro before beforeHolds
        exact lasting.collect beforeHolds _
      · rwa [beginFrame_of_silent silent]
  | writeAbsent throttle absent => exact mailboxes
  | write throttle targetFound =>
      intro motor state found
      rw [motor?_staged] at found
      split at found
      · apply mailbox_of_map mailboxes _ found
        intro before beforeHolds
        exact beforeHolds
      · exact mailboxes motor state found
  | endHeld held => exact mailboxes
  | endReleased released =>
      intro motor state found
      rw [motor?_fire] at found
      apply mailbox_of_map mailboxes _ found
      intro before beforeHolds
      exact beforeHolds
  | transferDone target capture => exact mailboxes_transferDone lasting mailboxes target capture
  | send target command => exact mailboxes

end Mailboxes

theorem soundMailboxes_effect (mailboxes : link.SoundMailboxes)
    (effect : link.Effect op next calls) : next.SoundMailboxes :=
  mailboxes_effect Mailbox.lasting_sound mailboxes effect

theorem roomyBuffers_effect (buffers : link.RoomyBuffers) (effect : link.Effect op next calls) :
    next.RoomyBuffers := by
  cases effect with
  | beginFrame => simpa [RoomyBuffers] using buffers
  | writeAbsent throttle absent => exact buffers
  | write throttle found =>
      intro entry entryMem
      simp only [staged, updateTimer, updateMotor, List.mem_map] at entryMem
      rcases entryMem with ⟨before, beforeMem, rfl⟩
      have length := buffers before beforeMem
      split
      · split
        · simpa [TimerState.stageBurst] using length
        · exact length
      · exact length
  | endHeld held => exact buffers
  | endReleased released =>
      intro entry entryMem
      simp only [fire, List.mem_map] at entryMem
      rcases entryMem with ⟨before, beforeMem, rfl⟩
      have length := buffers before beforeMem
      unfold TimerState.started
      split <;> exact length
  | transferDone motor capture => simpa [RoomyBuffers] using buffers
  | send target command => exact buffers

/-- What arriving commands and passing frames keep of a queue is kept of the queue of a link. -/
theorem commands_effect {holds : Queue → Prop}
    (enqueued : ∀ queue target command, holds queue → holds (queue.enqueue target command).2)
    (ticked : ∀ queue, holds queue → holds queue.tick.2) (commands : holds link.commands)
    (effect : link.Effect op next calls) : holds next.commands := by
  have afterTick := ticked link.commands commands
  cases effect with
  | beginFrame => simpa using commands
  | writeAbsent throttle absent => exact commands
  | write throttle found => exact commands
  | endHeld held => rwa [held] at afterTick
  | endReleased released => rwa [released] at afterTick
  | transferDone motor capture => simpa using commands
  | send target command => exact enqueued link.commands target command commands

theorem soundCommands_effect (commands : link.commands.Sound)
    (effect : link.Effect op next calls) : next.commands.Sound :=
  commands_effect (fun _ target command sound => Queue.sound_enqueue sound target command)
    (fun _ => Queue.sound_tick) commands effect

theorem sound_effect (sound : link.Sound) (effect : link.Effect op next calls) : next.Sound := by
  refine ⟨?_, roomyBuffers_effect sound.buffers effect, soundCommands_effect sound.commands effect,
    fun found => soundMailboxes_effect sound.soundMailboxes effect _ _ found⟩
  rw [wiring_effect effect]
  exact sound.wiring

theorem sound_beginFrame (sound : link.Sound) : link.beginFrame.1.Sound :=
  sound_effect sound .beginFrame

theorem sound_withCommands (sound : link.Sound) {commands : Queue} (queueSound : commands.Sound) :
    ({ link with commands } : Link).Sound :=
  ⟨sound.wiring, sound.buffers, queueSound, sound.mailboxes⟩

/-- With lanes that fit, every operation has an answer. -/
theorem exists_step (fit : link.wiring.LanesFit) (op : Op) :
    ∃ next calls, link.step op = .ok (next, calls) := by
  cases op with
  | write motor throttle =>
      cases found : link.motor? motor with
      | none => exact ⟨_, _, write_of_absent found throttle⟩
      | some state =>
          refine ⟨_, _, write_of_connected found (fun bursts => ?_) throttle⟩
          have inRange := fit bursts motor state.channel (channel?_wiring found)
          simp only [channelsPerTimer, TimerState.burstCapacity] at inRange ⊢
          omega
  | beginFrame => exact ⟨_, _, rfl⟩
  | endFrame => exact ⟨_, _, rfl⟩
  | transferDone motor capture => exact ⟨_, _, rfl⟩
  | send target command => exact ⟨_, _, rfl⟩

end Steps

section Runs

theorem run_cons_eq_ok_iff :
    link.run (op :: rest) = .ok (last, calls) ↔
      ∃ next made more, link.step op = .ok (next, made) ∧ next.run rest = .ok (last, more) ∧
        calls = made ++ more := by
  simp only [run]
  cases step : link.step op with
  | error fault => simp [bind, Except.bind]
  | ok result =>
      rcases result with ⟨next, made⟩
      cases later : next.run rest with
      | error fault => simp [bind, Except.bind, later]
      | ok result =>
          rcases result with ⟨last, more⟩
          simp [bind, Except.bind, later, pure, Except.pure, eq_comm]

theorem run_append_eq_ok_iff :
    link.run (ops ++ rest) = .ok (last, calls) ↔
      ∃ next made more, link.run ops = .ok (next, made) ∧ next.run rest = .ok (last, more) ∧
        calls = made ++ more := by
  induction ops generalizing link calls with
  | nil => simp [run]
  | cons op ops ih =>
      simp only [List.cons_append, run_cons_eq_ok_iff, ih]
      constructor
      · rintro ⟨_, made, _, step, ⟨next, more, later, run, rerun, rfl⟩, rfl⟩
        exact ⟨next, made ++ more, later, ⟨_, made, more, step, run, rfl⟩, rerun, by simp⟩
      · rintro ⟨next, _, later, ⟨_, made, more, step, run, rfl⟩, rerun, rfl⟩
        exact ⟨_, made, more ++ later, step, ⟨next, more, later, run, rerun, rfl⟩, by simp⟩

/-- What holds at the start of a run and is kept by each of its steps holds at its end. -/
theorem step_induction {motive : List Op → Link → List Call → Prop} (start : motive [] link [])
    (keep : ∀ {ops mid calls op next made}, link.run ops = .ok (mid, calls) →
      mid.step op = .ok (next, made) → motive ops mid calls →
        motive (ops ++ [op]) next (calls ++ made))
    (run : link.run ops = .ok (last, calls)) : motive ops last calls := by
  induction ops using List.reverseRecOn generalizing last calls with
  | nil =>
      cases run
      exact start
  | append_singleton ops op ih =>
      rcases run_append_eq_ok_iff.mp run with ⟨mid, made, more, earlier, single, rfl⟩
      rcases run_cons_eq_ok_iff.mp single with ⟨_, _, _, step, done, rfl⟩
      cases done
      rw [List.append_nil]
      exact keep earlier step (ih earlier)

/-- No run changes the wiring. -/
theorem wiring_run (run : link.run ops = .ok (last, calls)) : last.wiring = link.wiring := by
  refine step_induction (motive := fun _ mid _ => mid.wiring = link.wiring) rfl ?_ run
  intro _ mid _ op next made _ step wiring
  exact (wiring_effect (effect_of_step step)).trans wiring

/-- With lanes that fit, a run never fails. -/
theorem exists_run_of_lanesFit (fit : link.wiring.LanesFit) (ops : List Op) :
    ∃ last calls, link.run ops = .ok (last, calls) := by
  induction ops generalizing link with
  | nil => exact ⟨link, [], rfl⟩
  | cons op rest ih =>
      rcases exists_step fit op with ⟨next, made, step⟩
      rw [← wiring_effect (effect_of_step step)] at fit
      rcases ih fit with ⟨last, more, run⟩
      exact ⟨last, made ++ more, run_cons_eq_ok_iff.mpr ⟨next, made, more, step, run, rfl⟩⟩

theorem soundMailboxes_run (mailboxes : link.SoundMailboxes)
    (run : link.run ops = .ok (last, calls)) : last.SoundMailboxes := by
  refine step_induction (motive := fun _ mid _ => mid.SoundMailboxes) mailboxes ?_ run
  intro _ mid _ op next made _ step midSound
  exact soundMailboxes_effect midSound (effect_of_step step)

theorem soundCommands_run (commands : link.commands.Sound)
    (run : link.run ops = .ok (last, calls)) : last.commands.Sound := by
  refine step_induction (motive := fun _ mid _ => mid.commands.Sound) commands ?_ run
  intro _ mid _ op next made _ step midSound
  exact soundCommands_effect midSound (effect_of_step step)

theorem sound_run (sound : link.Sound) (run : link.run ops = .ok (last, calls)) : last.Sound := by
  refine step_induction (motive := fun _ mid _ => mid.Sound) sound ?_ run
  intro _ mid _ op next made _ step midSound
  exact sound_effect midSound (effect_of_step step)

/-- A run of a sound link never fails, ends in a sound link, and keeps the wiring. -/
theorem exists_run (sound : link.Sound) (ops : List Op) :
    ∃ last calls, link.run ops = .ok (last, calls) ∧ last.Sound ∧ last.wiring = link.wiring := by
  rcases exists_run_of_lanesFit sound.wiring.lanesFit ops with ⟨last, calls, run⟩
  exact ⟨last, calls, run, sound_run sound run, wiring_run run⟩

/-- A property of the operations performed so far, of the link after them and of the calls made in
them holds after a run if it holds at the start and every operation keeps it. -/
theorem run_induction {motive : List Op → Link → List Call → Prop} (sound : link.Sound)
    (start : motive [] link [])
    (keep : ∀ {ops mid calls op next made}, link.run ops = .ok (mid, calls) → mid.Sound →
      mid.wiring = link.wiring → motive ops mid calls → mid.Effect op next made →
        motive (ops ++ [op]) next (calls ++ made))
    (run : link.run ops = .ok (last, calls)) : motive ops last calls := by
  refine step_induction start ?_ run
  intro ops mid calls op next made earlier step before
  exact keep earlier (sound_run sound earlier) (wiring_run earlier) before
    (effect_of_step step)

end Runs

section Order

/-- A property of the moment, of the link and of the calls made holds after a run in the order of
frames if it holds at the start and every operation keeps it at the moments where it belongs. -/
theorem order_induction {motive : Moment → Link → List Call → Prop} {after : Moment}
    (start : motive .between link [])
    (keep : ∀ {moment after mid calls op next made}, mid.wiring = link.wiring →
      motive moment mid calls → mid.Effect op next made → moment.next op = some after →
        motive after next (calls ++ made))
    (run : link.run ops = .ok (last, calls)) (order : ops.foldlM Moment.next .between = some after) :
    motive after last calls := by
  refine step_induction (motive := fun ops last calls => ∀ after,
    ops.foldlM Moment.next .between = some after → motive after last calls) ?_ ?_ run after order
  · intro after order
    cases order
    exact start
  · intro ops mid calls op next made earlier step before after order
    simp only [List.foldlM_append, List.foldlM_cons, List.foldlM_nil, Option.bind_eq_bind,
      Option.bind_eq_some_iff, Option.pure_def] at order
    rcases order with ⟨moment, ordered, _, falls, same⟩
    cases same
    exact keep (wiring_run earlier) (before moment ordered) (effect_of_step step) falls

end Order

end Link

end Rotor

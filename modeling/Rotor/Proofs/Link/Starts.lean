import Rotor.Proofs.Link.Freshness
import Rotor.Proofs.Link.Ledger
import Rotor.Proofs.Link.Outlook

/-!
# What is loaded starts once

Without bursts a written channel waits for the start of its timer, through all frames that are held
back. `Link.released_of_tracks` says what a frame that is let out starts: each timer with the
channels that were written since its last start. For a single channel this comes down to a balance
that every operation keeps as long as the channel is not written again: it has been started, or it
is still waiting, and never both (`Link.startsOnce_of_isDue`).
-/

namespace Rotor

/-- The start of a timer with the given channels, none without channels. -/
def Timer.startWith? (timer : Timer) (channels : ChannelSet) : Option Call :=
  if channels.isEmpty then none else some (.start timer channels)

namespace Link

variable {link next last : Link} {op : Op} {ops : List Op} {calls made : List Call}
  {channel : Channel}

/-- A frame is let out in the course of operations. -/
def Releases (link : Link) (ops : List Op) : Prop :=
  ∃ before after mid calls, ops = before ++ .endFrame :: after ∧
    link.run before = .ok (mid, calls) ∧ mid.commands.LetsOut

/-- As long as a channel is not written again, the first frame that is let out starts it, and no
other one does. Until then it waits. -/
def StartsOnce (link : Link) (channel : Channel) : Prop :=
  ∀ ops last calls, link.run ops = .ok (last, calls) →
    (link.wiring.written channel.timer ops).contains channel.index = false →
      (link.Releases ops →
        calls.countP (Call.startsChannel channel) = 1 ∧ last.isDue channel = false) ∧
      (¬link.Releases ops →
        calls.countP (Call.startsChannel channel) = 0 ∧ last.isDue channel = true)

/-- How a link without bursts starts its timers, `ops` being what was done with it since `first`. -/
structure StartsLoaded (first : Link) (ops : List Op) (link : Link) : Prop where
  /-- A frame that is let out starts each timer with the channels written since its last start. -/
  released : link.commands.LetsOut → link.endFrame.2 = first.wiring.timers.filterMap fun timer =>
    timer.startWith? (first.wiring.written timer (first.sinceStart timer ops))
  /-- A frame that is held back calls nothing, and what is loaded stays loaded. -/
  held : ¬link.commands.LetsOut → link.endFrame.2 = [] ∧ link.endFrame.1.timers = link.timers
  /-- Nothing but the end of a frame starts a timer. -/
  only_endFrame : ∀ op next made, op ≠ .endFrame → link.step op = .ok (next, made) →
    ∀ call ∈ made, call.startedTimer? = none
  /-- What is written is started once. -/
  once : ∀ motor throttle channel, first.wiring.channel? motor = some channel →
    ∀ next made, link.step (.write motor throttle) = .ok (next, made) → next.StartsOnce channel

section Releases

theorem releases_concat_iff (run : link.run ops = .ok (last, calls)) :
    link.Releases (ops ++ [op]) ↔
      link.Releases ops ∨ (op = .endFrame ∧ last.commands.LetsOut) := by
  constructor
  · rintro ⟨before, after, mid, made, split, ran, lets⟩
    rcases List.eq_nil_or_concat after with rfl | ⟨inner, final, rfl⟩
    · rcases List.append_inj' split rfl with ⟨rfl, isEnd⟩
      cases run.symm.trans ran
      exact .inr ⟨List.singleton_inj.mp isEnd, lets⟩
    · rw [List.concat_eq_append, ← List.cons_append, ← List.append_assoc] at split
      rcases List.append_inj' split rfl with ⟨rfl, _⟩
      exact .inl ⟨before, inner, mid, made, rfl, ran, lets⟩
  · rintro (⟨before, after, mid, made, rfl, ran, lets⟩ | ⟨rfl, lets⟩)
    · exact ⟨before, after ++ [op], mid, made, by simp, ran, lets⟩
    · exact ⟨ops, [], last, calls, rfl, run, lets⟩

end Releases

section Timers

/-- A frame that is let out starts each timer with the channels written since its last start. -/
theorem released_of_tracks {first : Link} (tracks : Tracks first ops link)
    (single : link.burst = false) (lets : link.commands.LetsOut) :
    link.endFrame.2 = first.wiring.timers.filterMap fun timer =>
      timer.startWith? (first.wiring.written timer (first.sinceStart timer ops)) := by
  have fired := endFrame_of_letsOut tracks.commands lets
  calc link.endFrame.2
      = link.timers.filterMap fun entry => entry.startCall? link.burst := by rw [fired, fire]
    _ = link.timers.filterMap fun entry =>
          entry.timer.startWith?
            (first.wiring.written entry.timer (first.sinceStart entry.timer ops)) := by
        apply List.filterMap_congr
        intro entry entryMem
        rw [← tracks.pending_eq single entry entryMem, single]
        rfl
    _ = link.wiring.timers.filterMap fun timer =>
          timer.startWith? (first.wiring.written timer (first.sinceStart timer ops)) := by
        simp only [wiring, List.filterMap_map]
        rfl
    _ = first.wiring.timers.filterMap fun timer =>
          timer.startWith? (first.wiring.written timer (first.sinceStart timer ops)) := by
        rw [tracks.wiring_eq]

end Timers

section Channels

theorem contains_written_concat (wiring : Wiring) (channel : Channel) (ops : List Op) (op : Op) :
    (wiring.written channel.timer (ops ++ [op])).contains channel.index =
      ((wiring.written channel.timer ops).contains channel.index ||
        (wiring.written? channel.timer op).any fun other =>
          other.toSet.contains channel.index) := by
  rw [Wiring.written_concat]
  cases wiring.written? channel.timer op <;> simp

/-- An operation that neither writes a channel nor lets a frame out leaves it as it is. -/
theorem waits_effect (single : link.burst = false) (sound : link.commands.Sound)
    (unwritten : ((link.wiring.written? channel.timer op).any fun other =>
      other.toSet.contains channel.index) = false)
    (kept : ¬(op = .endFrame ∧ link.commands.LetsOut)) (effect : link.Effect op next made) :
    made.countP (Call.startsChannel channel) = 0 ∧ next.isDue channel = link.isDue channel := by
  have wiring := wiring_effect effect
  have lets := Queue.tick_fst_iff sound
  cases effect with
  | beginFrame =>
      exact ⟨countP_of_quiet (quiet_beginFrame link) channel,
        isDue_of_timers wiring (timers_beginFrame link) channel⟩
  | writeAbsent throttle absent => exact ⟨rfl, rfl⟩
  | @write motor state throttle found =>
      refine ⟨?_, ?_⟩
      · split <;> simp [Call.startsChannel]
      · apply isDue_staged_of_apart single
        intro onTimer sameSet
        rw [Wiring.written?_write (channel?_wiring found), if_pos onTimer, Option.any_some,
          sameSet, Channel.toSet, ChannelSet.contains_single_self] at unwritten
        cases unwritten
  | endHeld held => exact ⟨rfl, isDue_of_timers wiring rfl channel⟩
  | endReleased released =>
      rw [released] at lets
      exact absurd ⟨rfl, lets.mp rfl⟩ kept
  | transferDone motor capture =>
      exact ⟨countP_of_quiet (quiet_transferDone link motor capture) channel,
        isDue_of_timers wiring (timers_transferDone link motor capture) channel⟩
  | send target command => exact ⟨rfl, isDue_of_timers wiring rfl channel⟩

/-- Starting the timers starts the channels that wait, and then none waits. -/
theorem leaves_fire (single : link.burst = false) (nodup : link.wiring.timers.Nodup)
    (channel : Channel) :
    link.fire.2.countP (Call.startsChannel channel) = (if link.isDue channel then 1 else 0) ∧
      link.fire.1.isDue channel = false := by
  refine ⟨?_, isDue_fire single channel⟩
  have atMost := countP_fire_le_one nodup channel
  rw [isDue_eq_any_startsChannel nodup]
  split
  · next starts =>
    have atLeast := List.countP_pos_iff.mpr (List.any_eq_true.mp starts)
    omega
  · next quiet =>
    rw [List.countP_eq_zero]
    simpa using quiet

theorem leaves_endFrame (single : link.burst = false) (nodup : link.wiring.timers.Nodup)
    (sound : link.commands.Sound) (lets : link.commands.LetsOut)
    (step : link.step .endFrame = .ok (next, made)) (channel : Channel) :
    made.countP (Call.startsChannel channel) = (if link.isDue channel then 1 else 0) ∧
      next.isDue channel = false := by
  have ended : link.endFrame = (next, made) := Except.ok.inj step
  have stillSingle : ({ link with commands := link.commands.tick.2 } : Link).burst = false := single
  have fired := leaves_fire stillSingle nodup channel
  rwa [← endFrame_of_letsOut sound lets, ended] at fired

/-- What becomes of a channel that waits and is not written again. -/
theorem startsOnce_of_isDue (single : link.burst = false) (nodup : link.wiring.timers.Nodup)
    (sound : link.commands.Sound) (due : link.isDue channel = true) : link.StartsOnce channel := by
  intro ops last calls run unwritten
  refine step_induction (motive := fun ops last calls =>
    (link.wiring.written channel.timer ops).contains channel.index = false →
      (link.Releases ops →
        calls.countP (Call.startsChannel channel) = 1 ∧ last.isDue channel = false) ∧
      (¬link.Releases ops →
        calls.countP (Call.startsChannel channel) = 0 ∧ last.isDue channel = true))
    ?_ ?_ run unwritten
  · intro _
    refine ⟨?_, fun _ => ⟨rfl, due⟩⟩
    rintro ⟨before, after, mid, made, split, _⟩
    simp at split
  · intro ops mid calls op next made earlier step before unwritten
    rw [contains_written_concat, Bool.or_eq_false_iff] at unwritten
    rcases unwritten with ⟨unwrittenBefore, unwritten⟩
    rcases before unwrittenBefore with ⟨started, waiting⟩
    have wiring := wiring_run earlier
    have midSingle : mid.burst = false := (congrArg Wiring.burst wiring).trans single
    have midSound := soundCommands_run sound earlier
    rw [releases_concat_iff earlier, List.countP_append]
    by_cases leaves : op = .endFrame ∧ mid.commands.LetsOut
    · rcases leaves with ⟨rfl, lets⟩
      rcases leaves_endFrame midSingle (wiring ▸ nodup) midSound lets step channel with
        ⟨count, gone⟩
      refine ⟨fun _ => ⟨?_, gone⟩, fun never => absurd (.inr ⟨rfl, lets⟩) never⟩
      rw [count]
      by_cases released : link.Releases ops
      · rw [(started released).1, (started released).2]
        rfl
      · rw [(waiting released).1, (waiting released).2]
        rfl
    · rcases waits_effect midSingle midSound (wiring ▸ unwritten) leaves (effect_of_step step) with
        ⟨count, kept⟩
      rw [count, kept, or_iff_left leaves]
      exact ⟨started, waiting⟩

end Channels

/-- Without bursts, whatever the hardware answers and in every order of operations, a frame that is
let out starts each timer once, with the channels that were written since its last start, if there
are any. A frame that is held back starts nothing and loses nothing, and nothing else starts a
timer. So what is written is started by the next frame that is let out, and only once. -/
theorem loaded_channels_start_once {timing : Timing} (fits : timing.Fits)
    {settings : MotorSettings} (single : settings.burst = false)
    (answers : Nat → Except ClaimError Channel) :
    ∃ link init, connect settings timing answers = .ok (link, init) ∧
      link.wiring.timers.Nodup ∧
      (∀ timer ops, (link.wiring.written timer ops).isEmpty = false ↔
        link.wiring.Writes timer ops) ∧
      ∀ ops, ∃ last calls, link.run ops = .ok (last, calls) ∧ link.StartsLoaded ops last := by
  rcases exists_initial fits settings answers with ⟨link, init, connected, initial, _⟩
  have linkSingle : link.burst = false := initial.burst_eq.trans single
  refine ⟨link, init, connected, initial.nodup, fun _ _ => Wiring.isEmpty_written_iff, ?_⟩
  intro ops
  rcases exists_run_of_lanesFit (Wiring.lanesFit_of_single linkSingle) ops with ⟨last, calls, run⟩
  have tracks := (tracks_of_fresh initial.commands initial.fresh_timer).run run
  have wiring := tracks.wiring_eq
  have lastSingle : last.burst = false := (congrArg Wiring.burst wiring).trans linkSingle
  refine ⟨last, calls, run, released_of_tracks tracks lastSingle, ?_, ?_, ?_⟩
  · intro held
    rw [endFrame_of_not_letsOut tracks.commands held]
    exact ⟨rfl, rfl⟩
  · intro op next made notEnd step
    exact startedTimer?_of_effect (effect_of_step step) notEnd
  · intro motor throttle channel wired next made step
    have effect := effect_of_step step
    rw [← wiring] at wired
    cases effect with
    | writeAbsent throttle absent => simp [Link.wiring, absent] at wired
    | @write motor state throttle found =>
        obtain rfl : state.channel = channel :=
          Option.some.inj ((channel?_wiring found).symm.trans wired)
        have inService : state.channel.timer ∈ last.wiring.timers := by
          rw [wiring] at wired ⊢
          exact initial.known wired
        have nodup : (last.staged motor throttle state.channel).wiring.timers.Nodup := by
          rw [wiring_staged, wiring]
          exact initial.nodup
        exact startsOnce_of_isDue lastSingle nodup tracks.commands
          (isDue_staged_self lastSingle inService motor throttle)

/-- Five motors on two timers. The frame between the writes is held back by a command, and the next
one starts what was written on both sides of it. -/
theorem loaded_channels_start_once_after_held_frame :
    ∃ link init last calls,
      connect { motorCount := 5 } { gyroMicros := 10000 } (Bench.inOrder []).answer =
        .ok (link, init) ∧
      link.run [.write 0 100, .send .all .beacon1, .endFrame, .write 2 100, .write 4 300] =
        .ok (last, calls) ∧
      link.StartsLoaded
        [.write 0 100, .send .all .beacon1, .endFrame, .write 2 100, .write 4 300] last ∧
      calls.filterMap Call.startedTimer? = [] ∧
      last.endFrame.2 = [.start ⟨0⟩ ⟨0b101⟩, .start ⟨1⟩ ⟨0b1⟩] := by
  have fits : Timing.Fits { gyroMicros := 10000 } := by decide
  have single : ({ motorCount := 5 } : MotorSettings).burst = false := rfl
  rcases loaded_channels_start_once fits single (Bench.inOrder []).answer with
    ⟨link, init, connected, _, _, starts⟩
  rcases starts [.write 0 100, .send .all .beacon1, .endFrame, .write 2 100, .write 4 300] with
    ⟨last, calls, ran, startsLoaded⟩
  have outcome : ∃ link init last calls,
      connect { motorCount := 5 } { gyroMicros := 10000 } (Bench.inOrder []).answer =
        .ok (link, init) ∧
      link.run [.write 0 100, .send .all .beacon1, .endFrame, .write 2 100, .write 4 300] =
        .ok (last, calls) ∧
      calls.filterMap Call.startedTimer? = [] ∧
      last.endFrame.2 = [.start ⟨0⟩ ⟨0b101⟩, .start ⟨1⟩ ⟨0b1⟩] :=
    ⟨_, _, _, _, rfl, rfl, rfl, rfl⟩
  rcases outcome with ⟨_, _, _, _, sameConnected, sameRan, started⟩
  cases connected.symm.trans sameConnected
  cases ran.symm.trans sameRan
  exact ⟨link, init, last, calls, connected, ran, startsLoaded, started⟩

end Link

end Rotor

import Rotor.Proofs.Link.Transmission

/-!
# Whether a timer has anything new to send

The end of a frame starts the timers that have something staged. `Link.Tracks` says what that is:
without bursts the channels that were written since the timer was last started, with bursts the
whole buffer as soon as anything was ever written. A started channel is no longer staged, but a
burst stays, and every later frame sends it again whether or not anything was written for it.
-/

namespace Rotor

/-- The channel of a timer that an operation writes. -/
def Wiring.written? (wiring : Wiring) (timer : Timer) : Link.Op → Option Channel
  | .write motor _ => (wiring.channel? motor).filter fun channel => channel.timer = timer
  | _ => none

/-- The channels of a timer that operations write. -/
def Wiring.written (wiring : Wiring) (timer : Timer) (ops : List Link.Op) : ChannelSet :=
  (ops.filterMap (wiring.written? timer)).foldl (fun set channel => set.union channel.toSet) .empty

/-- Some motor on a timer is written in the course of operations. -/
def Wiring.Writes (wiring : Wiring) (timer : Timer) (ops : List Link.Op) : Prop :=
  ∃ motor throttle channel, .write motor throttle ∈ ops ∧
    wiring.channel? motor = some channel ∧ channel.timer = timer

namespace ChannelSet

variable {set left right : ChannelSet}

theorem isEmpty_iff : set.isEmpty = true ↔ set = .empty := by
  rcases set with ⟨bits⟩
  simp [isEmpty, empty]

theorem isEmpty_union_toSet (set : ChannelSet) (channel : Channel) :
    (set.union channel.toSet).isEmpty = false := by
  have member : (set.union channel.toSet).contains channel.index = true := by
    simp [Channel.toSet]
  exact isEmpty_eq_false_of_contains member

end ChannelSet

section Writing

variable {wiring : Wiring} {timer : Timer} {op : Link.Op} {ops : List Link.Op}

theorem Wiring.written_concat (wiring : Wiring) (timer : Timer) (ops : List Link.Op)
    (op : Link.Op) :
    wiring.written timer (ops ++ [op]) =
      (wiring.written? timer op).elim (wiring.written timer ops)
        fun channel => (wiring.written timer ops).union channel.toSet := by
  cases found : wiring.written? timer op <;> simp [Wiring.written, found]

theorem Wiring.written?_write {motor : Nat} {channel : Channel}
    (wired : wiring.channel? motor = some channel) (timer : Timer) (throttle : UInt16) :
    wiring.written? timer (.write motor throttle) =
      if channel.timer = timer then some channel else none := by
  simp [written?, wired, Option.filter]

theorem Wiring.isSome_written?_iff :
    (wiring.written? timer op).isSome = true ↔
      ∃ motor throttle channel, op = .write motor throttle ∧
        wiring.channel? motor = some channel ∧ channel.timer = timer := by
  cases op with
  | write motor throttle =>
      cases found : wiring.channel? motor <;> simp [Wiring.written?, found, Option.filter]
  | _ => simp [Wiring.written?]

theorem Wiring.writes_concat_iff :
    wiring.Writes timer (ops ++ [op]) ↔
      wiring.Writes timer ops ∨ (wiring.written? timer op).isSome = true := by
  rw [isSome_written?_iff]
  constructor
  · rintro ⟨motor, throttle, channel, opMem, wired, onTimer⟩
    rcases List.mem_append.mp opMem with earlier | last
    · exact .inl ⟨motor, throttle, channel, earlier, wired, onTimer⟩
    · exact .inr ⟨motor, throttle, channel, (List.mem_singleton.mp last).symm, wired, onTimer⟩
  · rintro (⟨motor, throttle, channel, opMem, wired, onTimer⟩ |
      ⟨motor, throttle, channel, rfl, wired, onTimer⟩)
    · exact ⟨motor, throttle, channel, List.mem_append_left _ opMem, wired, onTimer⟩
    · exact ⟨motor, throttle, channel, List.mem_append_right _ (by simp), wired, onTimer⟩

/-- Channels are written exactly when some motor is. -/
theorem Wiring.isEmpty_written_iff :
    (wiring.written timer ops).isEmpty = false ↔ wiring.Writes timer ops := by
  induction ops using List.reverseRecOn with
  | nil => simp [Wiring.written, Wiring.Writes, ChannelSet.isEmpty, ChannelSet.empty]
  | append_singleton ops op ih =>
      rw [written_concat, writes_concat_iff, ← ih]
      cases wiring.written? timer op with
      | none => simp
      | some channel => simp [ChannelSet.isEmpty_union_toSet]

end Writing

namespace Link

variable {link next last : Link} {op : Op} {ops : List Op} {calls made : List Call}
  {timer : Timer}

/-- The operations after the last start of a timer, `since` being those before the run. -/
def sinceStartFrom (link : Link) (timer : Timer) (since : List Op) : List Op → List Op
  | [] => since
  | op :: rest =>
    match link.step op with
    | .ok (next, made) =>
      next.sinceStartFrom timer
        (if made.any fun call => call.startedTimer? = some timer then [] else since ++ [op]) rest
    | .error _ => since

/-- The operations of a run after the last start of a timer. -/
def sinceStart (link : Link) (timer : Timer) (ops : List Op) : List Op :=
  link.sinceStartFrom timer [] ops

theorem sinceStartFrom_concat (run : link.run ops = .ok (last, calls))
    (step : last.step op = .ok (next, made)) (timer : Timer) (since : List Op) :
    link.sinceStartFrom timer since (ops ++ [op]) =
      if made.any fun call => call.startedTimer? = some timer then []
      else link.sinceStartFrom timer since ops ++ [op] := by
  induction ops generalizing link calls since with
  | nil =>
      cases run
      simp [sinceStartFrom, step]
  | cons first rest ih =>
      rcases run_cons_eq_ok_iff.mp run with ⟨mid, before, more, stepFirst, later, rfl⟩
      simp only [List.cons_append, sinceStartFrom, stepFirst]
      exact ih later _

theorem sinceStart_concat (run : link.run ops = .ok (last, calls))
    (step : last.step op = .ok (next, made)) (timer : Timer) :
    link.sinceStart timer (ops ++ [op]) =
      if made.any fun call => call.startedTimer? = some timer then []
      else link.sinceStart timer ops ++ [op] :=
  sinceStartFrom_concat run step timer []

/-- Only the end of a frame starts timers. -/
theorem startedTimer?_of_effect (effect : link.Effect op next made) (notEnd : op ≠ .endFrame) :
    ∀ call ∈ made, call.startedTimer? = none := by
  intro call callMem
  cases effect with
  | beginFrame => exact Call.startedTimer?_of_quiet (quiet_beginFrame link call callMem)
  | writeAbsent throttle absent => cases callMem
  | write throttle found =>
      split at callMem
      · cases callMem
      · rw [List.mem_singleton.mp callMem]
        rfl
  | endHeld held => exact absurd rfl notEnd
  | endReleased released => exact absurd rfl notEnd
  | transferDone motor capture =>
      exact Call.startedTimer?_of_quiet (quiet_transferDone link motor capture call callMem)
  | send target command => cases callMem

section Tracking

variable {first : Link} {entry : TimerState}

/-- What is staged after a run from `first`. -/
structure Tracks (first : Link) (ops : List Op) (link : Link) : Prop where
  commands : link.commands.Sound
  wiring_eq : link.wiring = first.wiring
  pending_eq : link.burst = false → ∀ entry ∈ link.timers,
    entry.pending = first.wiring.written entry.timer (first.sinceStart entry.timer ops)
  burst_iff : link.burst = true → ∀ entry ∈ link.timers,
    entry.burstLength ≠ 0 ↔ first.wiring.Writes entry.timer ops

theorem any_startedTimer?_of_quiet (quiet : ∀ call ∈ made, call.startedTimer? = none)
    (timer : Timer) : (made.any fun call => call.startedTimer? = some timer) = false := by
  simp only [List.any_eq_false, decide_eq_true_eq]
  intro call callMem started
  rw [quiet call callMem] at started
  cases started

/-- An operation that writes nothing and starts no timer leaves what is staged. -/
theorem Tracks.still (tracks : Tracks first ops link) (run : first.run ops = .ok (link, calls))
    (step : link.step op = .ok (next, made)) (commands : next.commands.Sound)
    (timers : next.timers = link.timers)
    (unwritten : ∀ timer, first.wiring.written? timer op = none)
    (quiet : ∀ call ∈ made, call.startedTimer? = none) : Tracks first (ops ++ [op]) next := by
  have wiring := wiring_effect (effect_of_step step)
  have burst : next.burst = link.burst := congrArg Wiring.burst wiring
  refine ⟨commands, wiring.trans tracks.wiring_eq, ?_, ?_⟩
  · intro single entry entryMem
    rw [sinceStart_concat run step, any_startedTimer?_of_quiet quiet, if_neg Bool.false_ne_true,
      Wiring.written_concat, unwritten]
    exact tracks.pending_eq (burst ▸ single) entry (timers ▸ entryMem)
  · intro bursts entry entryMem
    rw [Wiring.writes_concat_iff, unwritten]
    simpa using tracks.burst_iff (burst ▸ bursts) entry (timers ▸ entryMem)

/-- A write stages its channel, or the whole buffer of its timer. -/
theorem Tracks.write {motor : Nat} {state : MotorState} {throttle : UInt16}
    (tracks : Tracks first ops link) (run : first.run ops = .ok (link, calls))
    (step : link.step (.write motor throttle) =
      .ok (link.staged motor throttle state.channel, made))
    (found : link.motor? motor = some state) :
    Tracks first (ops ++ [.write motor throttle]) (link.staged motor throttle state.channel) := by
  have quiet := startedTimer?_of_effect (effect_of_step step) (by simp)
  have wired : first.wiring.channel? motor = some state.channel := by
    rw [← tracks.wiring_eq]
    exact channel?_wiring found
  refine ⟨tracks.commands, (wiring_staged link motor throttle _).trans tracks.wiring_eq, ?_, ?_⟩
  · intro single entry entryMem
    replace single : link.burst = false := single
    rcases mem_timers_staged entryMem with ⟨before, beforeMem, rfl⟩
    have staged := tracks.pending_eq single before beforeMem
    rw [sinceStart_concat run step, any_startedTimer?_of_quiet quiet, if_neg Bool.false_ne_true,
      Wiring.written_concat, Wiring.written?_write wired, single]
    by_cases onTimer : before.timer = state.channel.timer
    · simp only [onTimer, if_true, Bool.false_eq_true, if_false, TimerState.stageChannel,
        Option.elim_some]
      rw [staged, onTimer]
    · simp only [onTimer, Ne.symm onTimer, if_false, Option.elim_none]
      exact staged
  · intro bursts entry entryMem
    replace bursts : link.burst = true := bursts
    rcases mem_timers_staged entryMem with ⟨before, beforeMem, rfl⟩
    have staged := tracks.burst_iff bursts before beforeMem
    rw [Wiring.writes_concat_iff, Wiring.written?_write wired, bursts]
    by_cases onTimer : before.timer = state.channel.timer
    · have nonempty : (link.wordsFor motor throttle).length * channelsPerTimer ≠ 0 := by
        rw [length_wordsFor]
        cases link.encoding <;> decide
      simp [onTimer, TimerState.stageBurst, nonempty]
    · simpa [onTimer, Ne.symm onTimer] using staged

/-- Starting the timers takes back what was staged for the channels, and leaves the bursts. -/
theorem Tracks.fire {commands : Queue} (tracks : Tracks first ops link)
    (run : first.run ops = .ok (link, calls)) (sound : commands.Sound)
    (step : link.step .endFrame =
      .ok ((Link.fire { link with commands }).1, (Link.fire { link with commands }).2)) :
    Tracks first (ops ++ [.endFrame]) (Link.fire { link with commands }).1 := by
  have wiring := wiring_effect (effect_of_step step)
  have unwritten (timer : Timer) : first.wiring.written? timer .endFrame = none := rfl
  refine ⟨sound, wiring.trans tracks.wiring_eq, ?_, ?_⟩
  · intro single entry entryMem
    replace single : link.burst = false := single
    rcases List.mem_map.mp entryMem with ⟨before, beforeMem, rfl⟩
    have staged := tracks.pending_eq single before beforeMem
    simp only [TimerState.started, single, Bool.false_eq_true, if_false]
    rw [sinceStart_concat run step]
    split
    · rfl
    · next notStarted =>
      rw [Wiring.written_concat, unwritten, Option.elim_none, ← staged, eq_comm,
        ← ChannelSet.isEmpty_iff]
      -- What is pending would have been started.
      by_contra pending
      rw [Bool.not_eq_true] at pending
      have due : (before.due link.burst).isEmpty = false := by
        rw [single]
        exact pending
      rcases exists_startCall? due with ⟨call, starts⟩
      apply notStarted
      rw [List.any_eq_true]
      refine ⟨call, mem_calls_fire.mpr ⟨before, beforeMem, starts⟩, ?_⟩
      simpa using startedTimer?_of_startCall? starts
  · intro bursts entry entryMem
    replace bursts : link.burst = true := bursts
    rcases List.mem_map.mp entryMem with ⟨before, beforeMem, rfl⟩
    simp only [TimerState.started, bursts, if_true]
    rw [Wiring.writes_concat_iff, unwritten]
    simpa using tracks.burst_iff bursts before beforeMem

/-- What is staged is tracked through every operation. -/
theorem Tracks.step (tracks : Tracks first ops link) (run : first.run ops = .ok (link, calls))
    {op : Op} (step : link.step op = .ok (next, made)) : Tracks first (ops ++ [op]) next := by
  have quiet := startedTimer?_of_effect (effect_of_step step)
  have ticked := Queue.sound_tick tracks.commands
  cases effect_of_step step with
  | beginFrame =>
      exact tracks.still run step (by simpa using tracks.commands) (by simp) (fun _ => rfl)
        (quiet (by simp))
  | writeAbsent throttle absent =>
      rename_i motor
      have unwired : first.wiring.channel? motor = none := by
        rw [← tracks.wiring_eq]
        simp [wiring, absent]
      exact tracks.still run step tracks.commands rfl
        (fun timer => by simp [Wiring.written?, unwired]) (quiet (by simp))
  | write throttle found => exact tracks.write run step found
  | endHeld held =>
      rw [held] at ticked
      exact tracks.still run step ticked rfl (fun _ => rfl) (by simp)
  | endReleased released =>
      rw [released] at ticked
      exact tracks.fire run ticked step
  | transferDone motor capture =>
      exact tracks.still run step (by simpa using tracks.commands) (by simp) (fun _ => rfl)
        (quiet (by simp))
  | send target command =>
      exact tracks.still run step (Queue.sound_enqueue tracks.commands target command) rfl
        (fun _ => rfl) (quiet (by simp))

theorem Tracks.run (tracks : Tracks first [] first)
    (run : first.run ops = .ok (last, calls)) : Tracks first ops last := by
  refine step_induction (motive := fun ops last _ => Tracks first ops last) tracks ?_ run
  intro ops mid calls op next made earlier step before
  exact before.step earlier step

end Tracking

section Start

/-- Where nothing is staged yet, what is staged is tracked from the first operation on. -/
theorem tracks_of_fresh (commands : link.commands.Sound)
    (fresh : ∀ entry ∈ link.timers, entry = .ofTimer entry.timer) : Tracks link [] link := by
  refine ⟨commands, rfl, ?_, ?_⟩
  · intro _ entry entryMem
    rw [fresh entry entryMem]
    rfl
  · intro _ entry entryMem
    rw [fresh entry entryMem]
    simp [TimerState.ofTimer, Wiring.Writes]

/-- A link tracks what is staged from its first operation on, whatever the hardware answers. -/
theorem exists_tracks {timing : Timing} (fits : timing.Fits) (settings : MotorSettings)
    (answers : Nat → Except ClaimError Channel) :
    ∃ link init, connect settings timing answers = .ok (link, init) ∧ Tracks link [] link ∧
      link.burst = settings.burst ∧
      ∀ motor channel, link.wiring.channel? motor = some channel →
        channel.timer ∈ link.wiring.timers := by
  rcases exists_initial fits settings answers with ⟨link, init, connected, initial, _⟩
  exact ⟨link, init, connected, tracks_of_fresh initial.commands initial.fresh_timer,
    initial.burst_eq, fun _ _ wired => initial.known wired⟩

theorem exists_startCall?_iff {entry : TimerState} {burst : Bool} :
    (∃ call, entry.startCall? burst = some call) ↔
      if burst then entry.burstLength ≠ 0 else entry.pending.isEmpty = false := by
  constructor
  · rintro ⟨call, starts⟩
    unfold TimerState.startCall? at starts
    split at starts
    · cases starts
    · next nonempty =>
      cases burst with
      | false => simpa [TimerState.due] using nonempty
      | true =>
          rintro unwritten
          exact nonempty (by simp [TimerState.due, unwritten, ChannelSet.isEmpty, ChannelSet.empty])
  · intro staged
    apply exists_startCall?
    cases burst with
    | false => exact staged
    | true =>
        have written : entry.burstLength ≠ 0 := staged
        simp only [TimerState.due, if_true, written, if_false]
        decide

/-- A burst is sent as a whole: its buffer holds as many words as are sent. -/
theorem length_take_burst (buffers : link.RoomyBuffers) (filled : link.Filled) {entry : TimerState}
    (entryMem : entry ∈ link.timers) (staged : entry.burstLength ≠ 0) :
    (entry.burst.take entry.burstLength).length = link.encoding.frameLength * channelsPerTimer := by
  rw [List.length_take, buffers entry entryMem, (filled entry entryMem).resolve_left staged]
  exact Nat.min_eq_left (frameLength_fits link.encoding)

theorem length_of_burst_mem_fire (buffers : link.RoomyBuffers) (filled : link.Filled)
    {timer : Timer} {words : List UInt32} (started : .burst timer words ∈ link.fire.2) :
    words.length = link.encoding.frameLength * channelsPerTimer := by
  rcases mem_calls_fire.mp started with ⟨entry, entryMem, starts⟩
  have staged := exists_startCall?_iff.mp ⟨_, starts⟩
  have sent := eq_of_startCall? starts
  rcases Bool.eq_false_or_eq_true link.burst with bursts | single
  · rw [bursts, if_pos rfl] at staged sent
    cases sent
    exact length_take_burst buffers filled entryMem staged
  · rw [single] at sent
    cases sent

/-- The end of a frame that is let out starts the timers on which something was written: since
their last start without bursts, or at any time with bursts. -/
theorem Tracks.starts_iff {first : Link} (tracks : Tracks first ops link)
    (known : ∀ motor channel, first.wiring.channel? motor = some channel →
      channel.timer ∈ first.wiring.timers) (timer : Timer) :
    (∃ call ∈ link.endFrame.2, call.startedTimer? = some timer) ↔
      link.commands.LetsOut ∧
        first.wiring.Writes timer (if link.burst then ops else first.sinceStart timer ops) := by
  have staged {entry : TimerState} (entryMem : entry ∈ link.timers) :
      (∃ call, entry.startCall? link.burst = some call) ↔
        first.wiring.Writes entry.timer
          (if link.burst then ops else first.sinceStart entry.timer ops) := by
    rw [exists_startCall?_iff]
    cases burst : link.burst with
    | false => simpa [tracks.pending_eq burst entry entryMem] using Wiring.isEmpty_written_iff
    | true => simpa using tracks.burst_iff burst entry entryMem
  -- A frame that is held back starts nothing, and one that is let out starts what is staged.
  rcases endFrame_cases tracks.commands with ⟨lets, fired⟩ | ⟨held, silent⟩
  · rw [fired]
    constructor
    · rintro ⟨call, callMem, started⟩
      rcases mem_calls_fire.mp callMem with ⟨entry, entryMem, starts⟩
      rw [startedTimer?_of_startCall? starts] at started
      cases started
      exact ⟨lets, (staged entryMem).mp ⟨call, starts⟩⟩
    · rintro ⟨-, writes⟩
      have inService : timer ∈ link.wiring.timers := by
        rcases writes with ⟨motor, throttle, channel, _, wired, rfl⟩
        rw [tracks.wiring_eq]
        exact known motor channel wired
      rcases List.mem_map.mp inService with ⟨entry, entryMem, rfl⟩
      rcases (staged entryMem).mpr writes with ⟨call, starts⟩
      exact ⟨call, mem_calls_fire.mpr ⟨entry, entryMem, starts⟩, startedTimer?_of_startCall? starts⟩
  · simp [silent, held]

theorem Tracks.starts_iff_of_burst {first : Link} (tracks : Tracks first ops link)
    (known : ∀ motor channel, first.wiring.channel? motor = some channel →
      channel.timer ∈ first.wiring.timers) (bursts : link.burst = true)
    (writes : first.wiring.Writes timer ops) :
    (∃ call ∈ link.endFrame.2, call.startedTimer? = some timer) ↔ link.commands.LetsOut := by
  have starts := tracks.starts_iff known timer
  rw [if_pos bursts] at starts
  exact starts.trans (and_iff_left writes)

/-- Without bursts a timer is started exactly when a motor on it was written since its last start.
With bursts it is started at the end of every frame that is let out, once a motor on it was
written. -/
theorem starts_iff_written {timing : Timing} (fits : timing.Fits) (settings : MotorSettings)
    (answers : Nat → Except ClaimError Channel) :
    ∃ link init, connect settings timing answers = .ok (link, init) ∧
      ∀ ops last calls, link.run ops = .ok (last, calls) →
        (∀ timer, (∃ call ∈ last.endFrame.2, call.startedTimer? = some timer) ↔
          last.commands.LetsOut ∧
            link.wiring.Writes timer
              (if settings.burst then ops else link.sinceStart timer ops)) ∧
        ∀ op next made, op ≠ .endFrame → last.step op = .ok (next, made) →
          ∀ call ∈ made, call.startedTimer? = none := by
  rcases exists_tracks fits settings answers with ⟨link, init, connected, tracks, burst, known⟩
  refine ⟨link, init, connected, ?_⟩
  intro ops last calls run
  have tracked := tracks.run run
  have lastBurst : last.burst = settings.burst :=
    (congrArg Wiring.burst tracked.wiring_eq).trans burst
  constructor
  · intro timer
    rw [← lastBurst]
    exact tracked.starts_iff known timer
  · intro op next made notEnd step
    exact startedTimer?_of_effect (effect_of_step step) notEnd

/-- Five motors on two timers, with bursts. Only the last motor was written, before the frame that
has just ended: its timer would be started again, and the other one would not. -/
theorem starts_iff_written_of_one_timer :
    ∃ link init last calls,
      connect { motorCount := 5, burst := true } {} (Bench.inOrder []).answer = .ok (link, init) ∧
      link.run [.write 4 100, .endFrame] = .ok (last, calls) ∧
      ∀ timer, (∃ call ∈ last.endFrame.2, call.startedTimer? = some timer) ↔
        last.commands.LetsOut ∧ link.wiring.Writes timer [.write 4 100, .endFrame] := by
  have fits : Timing.Fits {} := by decide
  rcases starts_iff_written fits { motorCount := 5, burst := true } (Bench.inOrder []).answer with
    ⟨link, init, connected, starts⟩
  have ran : ∃ last calls, link.run [.write 4 100, .endFrame] = .ok (last, calls) := by
    cases connected
    exact ⟨_, _, rfl⟩
  rcases ran with ⟨last, calls, ran⟩
  exact ⟨link, init, last, calls, connected, ran, (starts _ last calls ran).1⟩

/-- With bursts, a timer is started although nothing was written since its last start. -/
theorem burst_starts_without_write :
    ∃ link init last calls,
      connect { motorCount := 1, burst := true } {} (Bench.inOrder []).answer = .ok (link, init) ∧
      link.run [.write 0 100, .endFrame] = .ok (last, calls) ∧
      (∃ call ∈ last.endFrame.2, call.startedTimer? = some ⟨0⟩) ∧
      ¬link.wiring.Writes ⟨0⟩ (link.sinceStart ⟨0⟩ [.write 0 100, .endFrame]) := by
  refine ⟨_, _, _, _, rfl, rfl, by decide, ?_⟩
  rintro ⟨motor, throttle, channel, opMem, _⟩
  cases opMem

end Start

end Link

end Rotor

import Mathlib.Data.List.Nodup
import Rotor.Proofs.Channels
import Rotor.Proofs.Link.Runs
import Rotor.Proofs.Wire.Lanes

/-!
# Staging a frame

From its writes to its end a frame is under way in two places: in the words that were loaded or put
into a lane of a burst, and in the channels that wait for their timer. `Link.Loaded` says that a
channel is ready to send given words. A write makes its channel ready, and nothing that happens
before the end of the frame takes this back: a later write goes to another channel, and completed
transfers and new commands stay out of both places.
-/

namespace Rotor

/-- Two channels of one timer differ in their numbers. -/
theorem Channel.index_ne {left right : Channel} (sameTimer : left.timer = right.timer)
    (differ : left ≠ right) : left.index.toNat ≠ right.index.toNat := by
  intro sameIndex
  apply differ
  rcases left with ⟨timer, index⟩
  rcases right with ⟨_, other⟩
  cases sameTimer
  exact congrArg (Channel.mk timer) (UInt8.toNat_inj.mp sameIndex)

namespace Call

/-- Whether a call is about sending: it loads a channel, or starts a timer. -/
def sends : Call → Bool
  | .load _ _ | .start _ _ | .burst _ _ => true
  | _ => false

/-- The timer that a call starts. -/
def startedTimer? : Call → Option Timer
  | .start timer _ | .burst timer _ => some timer
  | _ => none

/-- Whether a call starts a channel. A burst starts all channels of its timer. -/
def startsChannel (channel : Channel) : Call → Bool
  | .start timer channels => timer = channel.timer && channels.contains channel.index
  | .burst timer _ => timer = channel.timer
  | _ => false

/-- The words that a call loads for a channel. -/
def loadFor? (channel : Channel) : Call → Option (List UInt32)
  | .load other words => if other = channel then some words else none
  | _ => none

theorem startedTimer?_of_quiet {call : Call} (quiet : call.sends = false) :
    call.startedTimer? = none := by
  cases call <;> simp_all [sends, startedTimer?]

theorem startsChannel_of_quiet {call : Call} (quiet : call.sends = false) (channel : Channel) :
    call.startsChannel channel = false := by
  cases call <;> simp_all [sends, startsChannel]

theorem loadFor?_of_quiet {call : Call} (quiet : call.sends = false) (channel : Channel) :
    call.loadFor? channel = none := by
  cases call <;> simp_all [sends, loadFor?]

end Call

/-- The words that were last loaded for a channel. -/
def lastLoad (channel : Channel) (calls : List Call) : Option (List UInt32) :=
  (calls.filterMap (Call.loadFor? channel)).getLast?

theorem lastLoad_append {calls more : List Call} {channel : Channel}
    (noLoad : ∀ call ∈ more, call.loadFor? channel = none) :
    lastLoad channel (calls ++ more) = lastLoad channel calls := by
  have nothing : more.filterMap (Call.loadFor? channel) = [] := by
    simpa using noLoad
  simp [lastLoad, nothing]

theorem lastLoad_append_of_quiet {calls more : List Call}
    (quiet : ∀ call ∈ more, call.sends = false) (channel : Channel) :
    lastLoad channel (calls ++ more) = lastLoad channel calls := by
  apply lastLoad_append
  intro call callMem
  exact Call.loadFor?_of_quiet (quiet call callMem) channel

theorem lastLoad_concat_self (calls : List Call) (channel : Channel) (words : List UInt32) :
    lastLoad channel (calls ++ [.load channel words]) = some words := by
  simp [lastLoad, Call.loadFor?]

theorem lastLoad_concat_of_ne {channel other : Channel} (differ : other ≠ channel)
    (calls : List Call) (words : List UInt32) :
    lastLoad channel (calls ++ [.load other words]) = lastLoad channel calls := by
  simp [lastLoad, Call.loadFor?, differ]

namespace Link

variable {link next : Link} {op : Op} {motor : Nat} {state : MotorState} {calls made : List Call}

section Quiet

theorem quiet_beginFrame (link : Link) : ∀ call ∈ link.beginFrame.2, call.sends = false := by
  rcases Bool.eq_false_or_eq_true link.telemetry with speaking | silent
  · intro call callMem
    simp only [beginFrame, speaking, if_true, List.mem_append, List.mem_flatMap,
      List.mem_map] at callMem
    rcases callMem with ⟨state, _, callMem⟩ | ⟨state, _, rfl⟩
    · unfold MotorState.beginCalls at callMem
      split at callMem
      · simp only [List.mem_cons, List.not_mem_nil, or_false] at callMem
        rcases callMem with rfl | rfl <;> rfl
      · simp only [List.mem_singleton] at callMem
        rw [callMem]
        rfl
    · rfl
  · simp [beginFrame_of_silent silent]

theorem quiet_flipWhere (link : Link) (chosen : Nat → MotorState → Bool) :
    ∀ call ∈ (link.flipWhere chosen).2, call.sends = false := by
  intro call callMem
  simp only [flipWhere, List.mem_flatMap] at callMem
  rcases callMem with ⟨state, _, callMem⟩
  unfold MotorState.flipCalls at callMem
  split at callMem
  · simp at callMem
  · simp only [List.mem_cons, List.not_mem_nil, or_false] at callMem
    rcases callMem with rfl | rfl <;> rfl

theorem quiet_transferDone (link : Link) (target : Nat) (capture : Capture) :
    ∀ call ∈ (link.transferDone target capture).2, call.sends = false := by
  cases found : link.motor? target with
  | none => simp [transferDone_of_absent found, Call.sends]
  | some state =>
      cases direction : state.direction with
      | input =>
          rw [transferDone_of_input found direction]
          by_cases empty : state.mailbox.phase = .empty
          · simp [received_of_empty empty, Call.sends]
          · simp [received_of_taken empty, Call.sends]
      | output =>
          have stop (channel : Channel) : (link.stopCall channel).sends = false := by
            unfold stopCall
            split <;> rfl
          rw [transferDone_of_output found direction]
          rcases Bool.eq_false_or_eq_true link.telemetry with speaking | silent
          · rw [sent_of_speaking speaking]
            intro call callMem
            simp only [List.mem_append, List.mem_cons, List.not_mem_nil, or_false] at callMem
            rcases callMem with (rfl | callMem) | rfl
            · exact stop _
            · exact quiet_flipWhere link _ call callMem
            · rfl
          · rw [sent_of_silent silent]
            intro call callMem
            simp only [List.mem_append, List.mem_cons, List.not_mem_nil, or_false] at callMem
            rcases callMem with rfl | rfl
            · exact stop _
            · rfl

end Quiet

section Start

theorem mem_calls_fire {call : Call} :
    call ∈ link.fire.2 ↔ ∃ entry ∈ link.timers, entry.startCall? link.burst = some call := by
  simp [fire]

theorem eq_of_startCall? {entry : TimerState} {burst : Bool} {call : Call}
    (starts : entry.startCall? burst = some call) :
    call = if burst then .burst entry.timer (entry.burst.take entry.burstLength)
      else .start entry.timer entry.pending := by
  unfold TimerState.startCall? at starts
  split at starts
  · simp at starts
  · split at starts
    · next bursts => simpa [bursts] using (Option.some.inj starts).symm
    · next single => simpa [single] using (Option.some.inj starts).symm

theorem startedTimer?_of_startCall? {entry : TimerState} {burst : Bool} {call : Call}
    (starts : entry.startCall? burst = some call) : call.startedTimer? = some entry.timer := by
  rw [eq_of_startCall? starts]
  split <;> rfl

theorem exists_startCall? {entry : TimerState} {burst : Bool}
    (nonempty : (entry.due burst).isEmpty = false) :
    ∃ call, entry.startCall? burst = some call := by
  unfold TimerState.startCall?
  rw [nonempty]
  cases burst with
  | false => exact ⟨_, rfl⟩
  | true => exact ⟨_, rfl⟩

/-- The call that starts a timer starts those of its channels that are due. -/
theorem startsChannel_of_startCall? {entry : TimerState} {burst : Bool} {call : Call}
    (starts : entry.startCall? burst = some call) (channel : Channel) :
    call.startsChannel channel =
      (entry.timer = channel.timer && (entry.due burst).contains channel.index) := by
  unfold TimerState.startCall? at starts
  split at starts
  · simp at starts
  · next nonempty =>
    split at starts
    · next isBurst =>
      cases starts
      have written : entry.burstLength ≠ 0 := by
        intro unwritten
        simp [TimerState.due, isBurst, unwritten, ChannelSet.isEmpty, ChannelSet.empty] at nonempty
      simp [Call.startsChannel, TimerState.due, isBurst, written]
    · next single =>
      cases starts
      simp [Call.startsChannel, TimerState.due, single]

end Start

section Records

variable {timer : Timer} {entry : TimerState}

theorem mem_of_timer? (found : link.timer? timer = some entry) :
    entry ∈ link.timers ∧ entry.timer = timer :=
  ⟨List.mem_of_find?_eq_some found, by simpa using List.find?_some found⟩

theorem exists_timer? (inService : timer ∈ link.wiring.timers) :
    ∃ entry, link.timer? timer = some entry := by
  rcases List.mem_map.mp inService with ⟨entry, entryMem, onTimer⟩
  rw [timer?, ← Option.isSome_iff_exists, List.find?_isSome]
  exact ⟨entry, entryMem, by simpa using onTimer⟩

/-- With every timer in service once, each record is the one of its timer. -/
theorem timer?_of_mem (nodup : link.wiring.timers.Nodup) (entryMem : entry ∈ link.timers) :
    link.timer? entry.timer = some entry := by
  rcases exists_timer? (List.mem_map_of_mem entryMem) with ⟨other, found⟩
  rcases mem_of_timer? found with ⟨otherMem, sameTimer⟩
  rw [found, List.inj_on_of_nodup_map nodup otherMem entryMem sameTimer]

end Records

section Due

/-- With every timer in service once, a channel is due exactly when the record of its timer says
so. -/
theorem isDue_iff (nodup : link.wiring.timers.Nodup) {channel : Channel} :
    link.isDue channel = true ↔
      ∃ entry ∈ link.timers, entry.timer = channel.timer ∧
        (entry.due link.burst).contains channel.index = true := by
  simp only [isDue, Option.any_eq_true]
  constructor
  · rintro ⟨entry, found, due⟩
    rcases mem_of_timer? found with ⟨entryMem, onTimer⟩
    exact ⟨entry, entryMem, onTimer, due⟩
  · rintro ⟨entry, entryMem, onTimer, due⟩
    exact ⟨entry, onTimer ▸ timer?_of_mem nodup entryMem, due⟩

/-- A channel is due exactly when starting the timers starts it. -/
theorem isDue_eq_any_startsChannel (nodup : link.wiring.timers.Nodup) (channel : Channel) :
    link.isDue channel = link.fire.2.any (Call.startsChannel channel) := by
  rw [Bool.eq_iff_iff, isDue_iff nodup, List.any_eq_true]
  constructor
  · rintro ⟨entry, entryMem, onTimer, due⟩
    rcases exists_startCall? (ChannelSet.isEmpty_eq_false_of_contains due) with ⟨call, starts⟩
    refine ⟨call, mem_calls_fire.mpr ⟨entry, entryMem, starts⟩, ?_⟩
    simp [startsChannel_of_startCall? starts, onTimer, due]
  · rintro ⟨call, callMem, startsChannel⟩
    rcases mem_calls_fire.mp callMem with ⟨entry, entryMem, starts⟩
    rw [startsChannel_of_startCall? starts, Bool.and_eq_true, decide_eq_true_eq] at startsChannel
    exact ⟨entry, entryMem, startsChannel⟩

end Due

/-- A channel is ready to send the given words, `calls` being what was called so far. -/
def Loaded (link : Link) (calls : List Call) (channel : Channel) (words : List UInt32) : Prop :=
  ∀ entry ∈ link.timers, entry.timer = channel.timer →
    if link.burst then
      entry.burstLength = link.encoding.frameLength * channelsPerTimer ∧
        lane (entry.burst.take entry.burstLength) channel.index.toNat = words
    else
      entry.pending.contains channel.index = true ∧ lastLoad channel calls = some words

theorem loaded_of_quiet {channel : Channel} {words : List UInt32}
    (timers : next.timers = link.timers) (wiring : next.wiring = link.wiring)
    (quiet : ∀ call ∈ made, call.sends = false) (loaded : link.Loaded calls channel words) :
    next.Loaded (calls ++ made) channel words := by
  have encoding : next.encoding = link.encoding := congrArg Wiring.encoding wiring
  have burst : next.burst = link.burst := congrArg Wiring.burst wiring
  unfold Loaded
  rw [timers, encoding, burst, lastLoad_append_of_quiet quiet]
  exact loaded

theorem mem_timers_staged {throttle : UInt16} {channel : Channel} {entry : TimerState}
    (entryMem : entry ∈ (link.staged motor throttle channel).timers) :
    ∃ before ∈ link.timers, entry = if before.timer = channel.timer then
        if link.burst then before.stageBurst (link.wordsFor motor throttle) channel.index.toNat
        else before.stageChannel channel
      else before := by
  simp only [staged, updateTimer, updateMotor, List.mem_map] at entryMem
  rcases entryMem with ⟨before, beforeMem, rfl⟩
  exact ⟨before, beforeMem, rfl⟩

theorem timer?_staged (link : Link) (motor : Nat) (throttle : UInt16) (channel : Channel)
    (timer : Timer) :
    (link.staged motor throttle channel).timer? timer = (link.timer? timer).map fun entry =>
      if entry.timer = channel.timer then
        if link.burst then entry.stageBurst (link.wordsFor motor throttle) channel.index.toNat
        else entry.stageChannel channel
      else entry := by
  simp only [timer?, staged, updateTimer, updateMotor, List.find?_map]
  congr 2
  funext entry
  simp only [Function.comp_apply]
  split
  · split <;> rfl
  · rfl

theorem length_wordsFor (link : Link) (motor : Nat) (throttle : UInt16) :
    (link.wordsFor motor throttle).length = link.encoding.frameLength := by
  simp [wordsFor]

theorem frameLength_fits (encoding : Encoding) :
    encoding.frameLength * channelsPerTimer ≤ TimerState.burstCapacity := by
  cases encoding <;> decide

/-- A burst buffer has room for a frame in each lane. -/
theorem wordsFor_fit (buffers : link.RoomyBuffers) {entry : TimerState}
    (entryMem : entry ∈ link.timers) (motor : Nat) (throttle : UInt16) :
    (link.wordsFor motor throttle).length * channelsPerTimer ≤ entry.burst.length := by
  rw [length_wordsFor, buffers entry entryMem]
  exact frameLength_fits link.encoding

/-- A burst is as long as four frames, if anything was written at all. -/
def Filled (link : Link) : Prop :=
  ∀ entry ∈ link.timers, entry.burstLength = 0 ∨
    entry.burstLength = link.encoding.frameLength * channelsPerTimer

theorem filled_of_fresh (fresh : ∀ entry ∈ link.timers, entry = .ofTimer entry.timer) :
    link.Filled := by
  intro entry entryMem
  rw [fresh entry entryMem]
  exact .inl rfl

theorem filled_effect (filled : link.Filled) (effect : link.Effect op next made) :
    next.Filled := by
  have encoding : next.encoding = link.encoding :=
    congrArg Wiring.encoding (wiring_effect effect)
  unfold Filled
  rw [encoding]
  cases effect with
  | beginFrame =>
      rw [timers_beginFrame]
      exact filled
  | writeAbsent throttle absent => exact filled
  | write throttle found =>
      intro entry entryMem
      rcases mem_timers_staged entryMem with ⟨before, beforeMem, rfl⟩
      have kept := filled before beforeMem
      split
      · split
        · right
          exact congrArg (· * channelsPerTimer) (length_wordsFor link _ throttle)
        · exact kept
      · exact kept
  | endHeld held => exact filled
  | endReleased released =>
      intro entry entryMem
      rcases List.mem_map.mp entryMem with ⟨before, beforeMem, rfl⟩
      have kept := filled before beforeMem
      unfold TimerState.started
      split <;> exact kept
  | transferDone target capture =>
      rw [timers_transferDone]
      exact filled
  | send target command => exact filled

theorem filled_run {last : Link} {ops : List Op} (filled : link.Filled)
    (run : link.run ops = .ok (last, calls)) : last.Filled := by
  refine step_induction (motive := fun _ mid _ => mid.Filled) filled ?_ run
  intro _ mid _ op next made _ step midFilled
  exact filled_effect midFilled (effect_of_step step)

/-- A write makes its channel ready. -/
theorem loaded_staged_self (buffers : link.RoomyBuffers) (fit : link.wiring.LanesFit)
    (found : link.motor? motor = some state) (throttle : UInt16) (calls : List Call) :
    (link.staged motor throttle state.channel).Loaded
      (calls ++ if link.burst then [] else [.load state.channel (link.wordsFor motor throttle)])
      state.channel (link.wordsFor motor throttle) := by
  intro entry entryMem onTimer
  rcases mem_timers_staged entryMem with ⟨before, beforeMem, rfl⟩
  have sameTimer : before.timer = state.channel.timer := by
    rw [← onTimer]
    split
    · split <;> rfl
    · rfl
  rw [if_pos sameTimer]
  rcases Bool.eq_false_or_eq_true link.burst with burst | single
  · have fits := wordsFor_fit buffers beforeMem motor throttle
    have burstAfter : (link.staged motor throttle state.channel).burst = true := burst
    rw [if_pos burst, if_pos burstAfter]
    refine ⟨congrArg (· * channelsPerTimer) (length_wordsFor link motor throttle), ?_⟩
    exact lane_take_place_self (fit burst motor state.channel (channel?_wiring found)) fits
  · have singleAfter : (link.staged motor throttle state.channel).burst = false := single
    rw [single, singleAfter]
    refine ⟨?_, lastLoad_concat_self calls state.channel _⟩
    simp [TimerState.stageChannel, Channel.toSet]

/-- A write leaves the other channels ready. -/
theorem loaded_staged_of_ne (fit : link.wiring.LanesFit) (found : link.motor? motor = some state)
    {other : Nat} {channel : Channel} (wired : link.wiring.channel? other = some channel)
    (apart : state.channel ≠ channel) {throttle : UInt16} {words : List UInt32}
    (loaded : link.Loaded calls channel words) :
    (link.staged motor throttle state.channel).Loaded
      (calls ++ if link.burst then [] else [.load state.channel (link.wordsFor motor throttle)])
      channel words := by
  intro entry entryMem onTimer
  rcases mem_timers_staged entryMem with ⟨before, beforeMem, rfl⟩
  have timer : before.timer = channel.timer := by
    rw [← onTimer]
    split
    · split <;> rfl
    · rfl
  have ready := loaded before beforeMem timer
  rcases Bool.eq_false_or_eq_true link.burst with burst | single
  · have burstAfter : (link.staged motor throttle state.channel).burst = true := burst
    rw [if_pos burst] at ready ⊢
    rw [if_pos burstAfter]
    split
    · next sameTimer =>
      have otherLane := Channel.index_ne (timer.symm.trans sameTimer) apart.symm
      refine ⟨congrArg (· * channelsPerTimer) (length_wordsFor link motor throttle), ?_⟩
      have sameLength : (before.stageBurst (link.wordsFor motor throttle)
          state.channel.index.toNat).burstLength = before.burstLength := by
        rw [ready.1]
        exact congrArg (· * channelsPerTimer) (length_wordsFor link motor throttle)
      rw [sameLength, ← ready.2]
      exact lane_take_place_of_ne (fit burst other channel wired)
        (fit burst motor state.channel (channel?_wiring found)) otherLane
    · exact ready
  · have singleAfter : (link.staged motor throttle state.channel).burst = false := single
    rw [single] at ready ⊢
    rw [singleAfter]
    refine ⟨?_, (lastLoad_concat_of_ne apart calls _).trans ready.2⟩
    split
    · simp [TimerState.stageChannel, ready.1]
    · exact ready.1

end Link

end Rotor

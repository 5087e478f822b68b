import Mathlib.Data.List.Perm.Subperm
import Rotor.Proofs.Command.Advance
import Rotor.Proofs.Link.Connected
import Rotor.Proofs.Link.Freshness
import Rotor.Proofs.Link.Turns

/-!
# The tables of a link

The records of a link refer to each other: a motor is on a timer, a timer serves motors, and both
have buffers of fixed sizes. `Link.WellFormed` says that the references lead somewhere and that the
buffers are as long as what goes into them. It holds of every link that is connected to hardware
which gives out four channels of a timer, whether or not two motors get the same one, and every
operation keeps it. So whatever an operation goes to is there (`Link.InReach`), and what it hands
over is never cut short (`Call.Sized`).
-/

namespace Rotor

/-- What a call hands over, or asks for, has its full length. -/
def Call.Sized (encoding : Encoding) : Call → Prop
  | .load _ words => words.length = encoding.frameLength
  | .burst _ words => words.length = encoding.frameLength * channelsPerTimer
  | .arm _ count => count = encoding.captureLength
  | .fetch _ room => room = encoding.captureLength
  | _ => True

/-- A waiting capture counts no more words than a mailbox holds. -/
def Mailbox.Bounded (box : Mailbox) : Prop :=
  box.count ≤ capacity

theorem Mailbox.lasting_bounded : Lasting Bounded := by
  refine ⟨?_, ?_⟩
  · intro box bounded capture
    unfold deposit beginDeposit?
    by_cases empty : box.phase = .empty
    · simp [empty, Bounded, endDeposit]
    · simpa [empty] using bounded
  · intro box bounded out
    unfold collect
    split <;> exact bounded

namespace Queue

variable {queue : Queue}

/-- The queue holds no more commands than it has room for, and its frames take some time. -/
structure Fits (queue : Queue) : Prop where
  sound : queue.Sound
  room : queue.entries.length ≤ capacity
  frames_pos : 0 < queue.frameMicros

theorem fits_empty (frameMicros : Nat) : (empty frameMicros).Fits :=
  ⟨sound_empty frameMicros, Nat.zero_le _, Nat.le_max_right _ _⟩

theorem fits_enqueue (fits : queue.Fits) (target : Target) (command : Command) :
    (queue.enqueue target command).2.Fits := by
  have sound := sound_enqueue fits.sound target command
  unfold enqueue at sound ⊢
  split
  · next few =>
    rw [if_pos few] at sound
    exact ⟨sound, by simpa using Nat.succ_le_of_lt few, fits.frames_pos⟩
  · exact fits

theorem fits_tick (fits : queue.Fits) : queue.tick.2.Fits := by
  have advance := advance_tick fits.sound
  have positive := fits.frames_pos
  rw [← advance.frameMicros_eq] at positive
  refine ⟨sound_tick fits.sound, ?_, positive⟩
  have room := fits.room
  generalize queue.tick.1 = out at advance
  generalize queue.tick.2 = next at advance ⊢
  cases advance with
  | idle entries => exact room
  | waits entries lasts => simpa [entries] using room
  | wakes entries ended due => simpa [entries] using room
  | sends entries active due => simpa [entries] using room
  | leaves entries ended done =>
      rw [entries, List.length_cons] at room
      exact Nat.le_of_succ_le room

end Queue

theorem Encoding.captureLength_le (encoding : Encoding) :
    encoding.captureLength ≤ Mailbox.capacity := by
  cases encoding <;> decide

namespace Link

variable {link next last : Link} {op : Op} {ops : List Op} {motor : Nat} {state : MotorState}
  {calls : List Call} {settings : MotorSettings} {answers : Nat → Except ClaimError Channel}

namespace Assignment

variable {assignment : Assignment}

theorem occupancy_skip (timer : Timer) : assignment.skip.occupancy timer =
    assignment.occupancy timer := by
  simp [occupancy, skip]

theorem occupancy_introduce (protocol : Protocol) (timer other : Timer) :
    (assignment.introduce protocol timer).occupancy other = assignment.occupancy other := by
  unfold introduce
  split <;> rfl

/-- A timer whose channels are all given out gets no other motor. -/
theorem occupancy_attach_le {timer : Timer} (few : assignment.occupancy timer ≤ channelsPerTimer)
    (channel : Channel) : (assignment.attach channel).occupancy timer ≤ channelsPerTimer := by
  unfold attach
  split
  · next room =>
    by_cases same : channel.timer = timer
    · subst same
      simpa [occupancy, MotorState.onChannel] using Nat.succ_le_of_lt room
    · simpa [occupancy, MotorState.onChannel, same] using few
  · rwa [occupancy_skip]

theorem occupancy_claim_le {timer : Timer} (few : assignment.occupancy timer ≤ channelsPerTimer)
    (settings : MotorSettings) (motor : Nat) (answer : Except ClaimError Channel) :
    (assignment.claim settings motor answer).occupancy timer ≤ channelsPerTimer := by
  cases answer with
  | error refusal =>
      simp only [claim, occupancy_skip]
      exact few
  | ok channel =>
      apply occupancy_attach_le
      rw [occupancy_introduce]
      exact few

theorem occupancy_claimAll_le (settings : MotorSettings)
    (answers : Nat → Except ClaimError Channel) (timer : Timer) :
    (claimAll settings answers).occupancy timer ≤ channelsPerTimer := by
  refine claimAll_induction (motive := fun _ assignment =>
    assignment.occupancy timer ≤ channelsPerTimer) (by simp [occupancy]) ?_
  intro count assignment few
  exact occupancy_claim_le few settings count (answers count)

end Assignment

/-- The references between the records of a link lead somewhere, and its buffers have the sizes that
they are made for. -/
structure WellFormed (link : Link) : Prop where
  few_motors : link.motorCount ≤ maxMotors
  few_timers : link.timers.length ≤ maxMotors
  nodup : (link.timers.map TimerState.timer).Nodup
  known : ∀ {motor state}, link.motor? motor = some state →
    state.channel.timer ∈ link.timers.map TimerState.timer
  few_members : ∀ timer, (link.members timer).length ≤ channelsPerTimer
  lane : ∀ {motor state}, link.motor? motor = some state →
    state.channel.index.toNat < channelsPerTimer
  buffers : link.RoomyBuffers
  filled : link.Filled
  mailboxes : link.SoundMailboxes
  bounded : link.AllMailboxes Mailbox.Bounded
  commands : link.commands.Fits

section Members

theorem mem_places {α : Type} {entries : List (Option α)} {chosen : α → Bool} {place : Nat} :
    place ∈ (List.range entries.length).filter (fun place => (entries[place]?).join.any chosen) ↔
      ∃ entry, (entries[place]?).join = some entry ∧ chosen entry = true := by
  simp only [List.mem_filter, List.mem_range, Option.any_eq_true]
  constructor
  · exact And.right
  · rintro ⟨entry, found, isChosen⟩
    refine ⟨?_, entry, found, isChosen⟩
    by_contra beyond
    simp [List.getElem?_eq_none (Nat.le_of_not_lt beyond)] at found

theorem length_places {α : Type} (entries : List (Option α)) (chosen : α → Bool) :
    ((List.range entries.length).filter fun place => (entries[place]?).join.any chosen).length =
      entries.countP (Option.any chosen) := by
  have all : (List.range entries.length).map (fun place => (entries[place]?).join) = entries := by
    apply List.ext_getElem?
    intro place
    by_cases inRange : place < entries.length
    · simp [inRange]
    · simp [inRange]
  rw [← List.countP_eq_length_filter]
  conv_rhs => rw [← all, List.countP_map]
  rfl

theorem mem_members {timer : Timer} : motor ∈ link.members timer ↔
    ∃ state, link.motor? motor = some state ∧ state.channel.timer = timer :=
  mem_places.trans (by simp only [decide_eq_true_eq]; rfl)

theorem length_members (link : Link) (timer : Timer) : (link.members timer).length =
    link.motors.countP fun motor => motor.any fun state => state.channel.timer = timer :=
  length_places link.motors fun state => state.channel.timer = timer

theorem members_of_wiring (wiring : next.wiring = link.wiring) (timer : Timer) :
    next.members timer = link.members timer := by
  have motorCount : next.motorCount = link.motorCount := congrArg Wiring.motorCount wiring
  have onTimer (link : Link) (motor : Nat) :
      (link.motor? motor).any (fun state => state.channel.timer = timer) =
        (link.wiring.channel? motor).any fun channel => channel.timer = timer := by
    simp [Link.wiring, Option.any_map]
  simp only [members, motorCount, onTimer, wiring]

/-- There is a motor for each timer in service, so there are no more timers than motors. -/
theorem length_timers_le (nodup : link.wiring.timers.Nodup)
    (used : ∀ {timer}, timer ∈ link.wiring.timers →
      ∃ motor channel, link.wiring.channel? motor = some channel ∧ channel.timer = timer) :
    link.timers.length ≤ link.motorCount := by
  have served : link.wiring.timers ⊆ (List.range link.motorCount).filterMap fun motor =>
      (link.wiring.channel? motor).map Channel.timer := by
    intro timer timerMem
    rcases used timerMem with ⟨motor, channel, wired, onTimer⟩
    rcases exists_motor?_of_channel? wired with ⟨state, found, _⟩
    apply List.mem_filterMap.mpr
    exact ⟨motor, List.mem_range.mpr (lt_motorCount_of_motor? found), by simp [wired, onTimer]⟩
  calc link.timers.length
    _ = link.wiring.timers.length := (List.length_map _).symm
    _ ≤ _ := (List.subperm_of_subset nodup served).length_le
    _ ≤ (List.range link.motorCount).length := List.length_filterMap_le _ _
    _ = link.motorCount := List.length_range

end Members

section Invariant

/-- A link that has just been connected is well formed. -/
theorem wellFormed_of_connect {timing : Timing} {init : List Call}
    (connected : connect settings timing answers = .ok (link, init))
    (lanes : ∀ motor channel, motor < settings.claimCount → answers motor = .ok channel →
      channel.index.toNat < channelsPerTimer) : link.WellFormed := by
  have initial := (initial_of_connect connected).1
  have few : link.motorCount ≤ maxMotors := by
    rw [initial.motorCount_eq]
    exact Nat.min_le_right _ _
  refine ⟨few, (length_timers_le initial.nodup initial.used).trans few, initial.nodup,
    fun found => initial.known (channel?_wiring found), ?_, ?_, initial.roomyBuffers,
    filled_of_fresh initial.fresh_timer, initial.soundMailboxes, ?_, ?_⟩
  · intro timer
    rcases exists_micros_of_connect connected with ⟨micros, _, _, rfl⟩
    rw [length_members]
    exact Assignment.occupancy_claimAll_le settings answers timer
  · intro motor state found
    rcases initial.answered found with ⟨inRange, answer, _⟩
    exact lanes motor state.channel inRange answer
  · intro motor state found
    rw [(initial.answered found).2.2]
    exact Nat.zero_le _
  · rcases exists_micros_of_connect connected with ⟨micros, _, _, rfl⟩
    exact Queue.fits_empty micros.toNat

theorem fits_effect (fits : link.commands.Fits) (effect : link.Effect op next calls) :
    next.commands.Fits :=
  commands_effect (fun _ target command before => Queue.fits_enqueue before target command)
    (fun _ => Queue.fits_tick) fits effect

theorem wellFormed_effect (wellFormed : link.WellFormed) (effect : link.Effect op next calls) :
    next.WellFormed := by
  -- the references are about the wiring, which no operation changes; only the contents move
  have wiring := wiring_effect effect
  have timers : next.timers.map TimerState.timer = link.timers.map TimerState.timer :=
    congrArg Wiring.timers wiring
  have channel (motor : Nat) : next.wiring.channel? motor = link.wiring.channel? motor :=
    congrFun (congrArg Wiring.channel? wiring) motor
  have before {motor : Nat} {state : MotorState} (found : next.motor? motor = some state) :
      ∃ earlier, link.motor? motor = some earlier ∧ earlier.channel = state.channel := by
    apply exists_motor?_of_channel?
    rw [← channel]
    exact channel?_wiring found
  refine ⟨?_, ?_, ?_, ?_, ?_, ?_, roomyBuffers_effect wellFormed.buffers effect,
    filled_effect wellFormed.filled effect, soundMailboxes_effect wellFormed.mailboxes effect,
    mailboxes_effect Mailbox.lasting_bounded wellFormed.bounded effect,
    fits_effect wellFormed.commands effect⟩
  · have motorCount : next.motorCount = link.motorCount := congrArg Wiring.motorCount wiring
    rw [motorCount]
    exact wellFormed.few_motors
  · have lengths := congrArg List.length timers
    rw [List.length_map, List.length_map] at lengths
    rw [lengths]
    exact wellFormed.few_timers
  · rw [timers]
    exact wellFormed.nodup
  · intro motor state found
    rcases before found with ⟨earlier, foundEarlier, sameChannel⟩
    rw [timers, ← sameChannel]
    exact wellFormed.known foundEarlier
  · intro timer
    rw [members_of_wiring wiring]
    exact wellFormed.few_members timer
  · intro motor state found
    rcases before found with ⟨earlier, foundEarlier, sameChannel⟩
    rw [← sameChannel]
    exact wellFormed.lane foundEarlier

theorem wellFormed_run (wellFormed : link.WellFormed) (run : link.run ops = .ok (last, calls)) :
    last.WellFormed := by
  refine step_induction (motive := fun _ mid _ => mid.WellFormed) wellFormed ?_ run
  intro _ mid _ op next made _ step midWellFormed
  exact wellFormed_effect midWellFormed (effect_of_step step)

end Invariant

section Sizes

theorem sized_beginFrame (link : Link) :
    ∀ call ∈ link.beginFrame.2, call.Sized link.encoding := by
  intro call callMem
  rcases Bool.eq_false_or_eq_true link.telemetry with speaking | silent
  · rw [calls_beginFrame speaking, List.mem_append, List.mem_flatMap, List.mem_map] at callMem
    rcases callMem with ⟨state, _, callMem⟩ | ⟨state, _, rfl⟩
    · rcases mem_beginCalls callMem with rfl | rfl <;> trivial
    · trivial
  · simp [beginFrame_of_silent silent] at callMem

theorem sized_fire (buffers : link.RoomyBuffers) (filled : link.Filled) :
    ∀ call ∈ link.fire.2, call.Sized link.encoding := by
  intro call callMem
  rcases mem_calls_fire.mp callMem with ⟨entry, _, starts⟩
  have started := eq_of_startCall? starts
  rcases Bool.eq_false_or_eq_true link.burst with bursts | single
  · rw [bursts, if_pos rfl] at started
    subst started
    exact length_of_burst_mem_fire buffers filled callMem
  · rw [single] at started
    subst started
    trivial

theorem sized_transferDone (link : Link) (target : Nat) (capture : Capture) :
    ∀ call ∈ (link.transferDone target capture).2, call.Sized link.encoding := by
  cases found : link.motor? target with
  | none => simp [transferDone_of_absent found, Call.Sized]
  | some state =>
      cases direction : state.direction with
      | input =>
          rw [transferDone_of_input found direction]
          by_cases empty : state.mailbox.phase = .empty
          · simp [received_of_empty empty, Call.Sized]
          · simp [received_of_taken empty, Call.Sized]
      | output =>
          have stopped : (link.stopCall state.channel).Sized link.encoding := by
            unfold stopCall
            split <;> trivial
          rw [transferDone_of_output found direction]
          rcases Bool.eq_false_or_eq_true link.telemetry with speaking | silent
          · rw [sent_of_speaking speaking, calls_flipWhere]
            intro call callMem
            simp only [List.mem_append, List.mem_cons, List.not_mem_nil, or_false,
              mem_flipsOf] at callMem
            rcases callMem with (rfl | ⟨channel, _, rfl | rfl⟩) | rfl
            · exact stopped
            · trivial
            · rfl
            · trivial
          · rw [sent_of_silent silent]
            simpa [Call.Sized] using stopped

theorem sized_effect (wellFormed : link.WellFormed) (effect : link.Effect op next calls) :
    ∀ call ∈ calls, call.Sized link.encoding := by
  cases effect with
  | beginFrame => exact sized_beginFrame link
  | writeAbsent throttle absent => simp
  | write throttle found =>
      split
      · simp
      · simpa [Call.Sized] using length_wordsFor link _ throttle
  | endHeld held => simp
  | @endReleased commands released =>
      exact @sized_fire { link with commands } wellFormed.buffers wellFormed.filled
  | transferDone target capture => exact sized_transferDone link target capture
  | send target command => simp

/-- Nothing that is handed over in a run is cut short. -/
theorem sized_run (wellFormed : link.WellFormed) (run : link.run ops = .ok (last, calls)) :
    ∀ call ∈ calls, call.Sized link.encoding := by
  refine step_induction (motive := fun _ _ calls => ∀ call ∈ calls, call.Sized link.encoding)
    (by simp) ?_ run
  intro _ mid _ op next made earlier step before
  have encoding : mid.encoding = link.encoding := congrArg Wiring.encoding (wiring_run earlier)
  have sized := sized_effect (wellFormed_run wellFormed earlier) (effect_of_step step)
  rw [encoding] at sized
  exact List.forall_mem_append.mpr ⟨before, sized⟩

end Sizes

section Reach

/-- Every record that an operation looks up is there, and every place that it goes to is within its
buffer. -/
structure InReach (link : Link) : Prop where
  timer : ∀ motor state, link.motor? motor = some state →
    ∃ (index : Nat) (entry : TimerState),
      link.timers[index]? = some entry ∧ entry.timer = state.channel.timer
  members : ∀ timer, ∀ motor ∈ link.members timer,
    motor < maxMotors ∧ (link.motor? motor).isSome = true
  frame : ∀ motor throttle,
    (link.wordsFor motor throttle).length * channelsPerTimer ≤ TimerState.burstCapacity
  symbols : ∀ motor state throttle, link.motor? motor = some state → ∀ entry ∈ link.timers,
    ∀ symbol < (link.wordsFor motor throttle).length,
      state.channel.index.toNat + channelsPerTimer * symbol < entry.burst.length
  burst : ∀ entry ∈ link.timers, entry.burstLength ≤ entry.burst.length
  capture : ∀ motor state, link.motor? motor = some state →
    link.encoding.captureLength ≤ state.mailbox.buffer.length
  edges : ∀ motor state count out, link.motor? motor = some state →
    (state.mailbox.collect out).1 = some count →
      count ≤ state.mailbox.buffer.length ∧ count ≤ (state.mailbox.collect out).2.1.length

/-- The last symbol of a frame in the last lane is at the end of a burst buffer. -/
theorem symbol_lt_burstCapacity {encoding : Encoding} {lane symbol : Nat}
    (isLane : lane < channelsPerTimer) (isSymbol : symbol < encoding.frameLength) :
    lane + channelsPerTimer * symbol < TimerState.burstCapacity := by
  have fits := frameLength_fits encoding
  simp only [channelsPerTimer] at isLane fits ⊢
  omega

theorem collect_le {box : Mailbox} {out : List UInt32} {count : Nat}
    (collected : (box.collect out).1 = some count) :
    count ≤ box.count ∧ count ≤ (box.collect out).2.1.length := by
  unfold Mailbox.collect at collected ⊢
  split at collected
  · next full =>
    cases collected
    simp only [full, if_true, length_overlay]
    exact ⟨Nat.min_le_left _ _, Nat.min_le_right _ _⟩
  · cases collected

theorem inReach_of_wellFormed (wellFormed : link.WellFormed) : link.InReach where
  timer := by
    intro motor state found
    rcases List.mem_map.mp (wellFormed.known found) with ⟨entry, entryMem, onTimer⟩
    rcases List.getElem?_of_mem entryMem with ⟨index, atIndex⟩
    exact ⟨index, entry, atIndex, onTimer⟩
  members := by
    intro timer motor isMember
    rcases mem_members.mp isMember with ⟨state, found, _⟩
    refine ⟨Nat.lt_of_lt_of_le (lt_motorCount_of_motor? found) wellFormed.few_motors, ?_⟩
    rw [found]
    rfl
  frame := by
    intro motor throttle
    rw [length_wordsFor]
    exact frameLength_fits link.encoding
  symbols := by
    intro motor state throttle found entry entryMem symbol isSymbol
    rw [length_wordsFor] at isSymbol
    rw [wellFormed.buffers entry entryMem]
    exact symbol_lt_burstCapacity (wellFormed.lane found) isSymbol
  burst := by
    intro entry entryMem
    rw [wellFormed.buffers entry entryMem]
    rcases wellFormed.filled entry entryMem with unwritten | written
    · rw [unwritten]
      exact Nat.zero_le _
    · rw [written]
      exact frameLength_fits link.encoding
  capture := by
    intro motor state found
    rw [(wellFormed.mailboxes motor state found).full_length]
    exact link.encoding.captureLength_le
  edges := by
    intro motor state count out found collected
    rcases collect_le collected with ⟨held, room⟩
    rw [(wellFormed.mailboxes motor state found).full_length]
    exact ⟨held.trans (wellFormed.bounded motor state found), room⟩

/-- A write with bursts puts every word of the frame into the lane of the motor's channel. -/
theorem exists_written_burst (wellFormed : link.WellFormed) (bursts : link.burst = true)
    (found : link.motor? motor = some state) (throttle : UInt16) :
    ∃ next, link.step (.write motor throttle) = .ok (next, []) ∧
      ∃ entry ∈ next.timers, entry.timer = state.channel.timer ∧
        ∀ symbol < link.encoding.frameLength,
          entry.burst[state.channel.index.toNat + channelsPerTimer * symbol]? =
            (link.wordsFor motor throttle)[symbol]? := by
  have isLane := wellFormed.lane found
  have inRange : state.channel.index.toNat ≤ TimerState.burstCapacity := by
    simp only [channelsPerTimer, TimerState.burstCapacity] at isLane ⊢
    omega
  have written := write_of_connected found (fun _ => inRange) throttle
  rw [if_pos bursts] at written
  rcases List.mem_map.mp (wellFormed.known found) with ⟨entry, entryMem, onTimer⟩
  refine ⟨_, written, entry.stageBurst (link.wordsFor motor throttle) state.channel.index.toNat,
    ?_, onTimer, ?_⟩
  · apply List.mem_map.mpr
    exact ⟨entry, entryMem, by simp [onTimer, bursts]⟩
  · intro symbol isSymbol
    apply Encoding.getElem?_place (by decide)
    · rwa [length_wordsFor]
    · rw [wellFormed.buffers entry entryMem]
      exact symbol_lt_burstCapacity isLane isSymbol

end Reach

/-- Hardware may refuse claims, may give two motors one channel, and may deliver what it likes: a
link that it gives none but the four channels of its timers runs through any operations on any
motors. Its tables stay well formed, what an operation goes to is there, what it hands over has its
full length, and no word of a frame falls past the end of a burst buffer. -/
theorem tables_well_formed {timing : Timing} (fits : timing.Fits) (settings : MotorSettings)
    (answers : Nat → Except ClaimError Channel)
    (lanes : ∀ motor channel, motor < settings.claimCount → answers motor = .ok channel →
      channel.index.toNat < channelsPerTimer) :
    ∃ link init, connect settings timing answers = .ok (link, init) ∧ ∀ ops, ∃ last calls,
      link.run ops = .ok (last, calls) ∧ last.wiring = link.wiring ∧ last.WellFormed ∧
      last.InReach ∧ (∀ call ∈ calls, call.Sized link.encoding) ∧
      ∀ motor state throttle, last.motor? motor = some state → last.burst = true →
        ∃ next, last.step (.write motor throttle) = .ok (next, []) ∧
          ∃ entry ∈ next.timers, entry.timer = state.channel.timer ∧
            ∀ symbol < last.encoding.frameLength,
              entry.burst[state.channel.index.toNat + channelsPerTimer * symbol]? =
                (last.wordsFor motor throttle)[symbol]? := by
  rcases exists_initial fits settings answers with ⟨link, init, connected, initial, _⟩
  have wellFormed := wellFormed_of_connect connected lanes
  refine ⟨link, init, connected, ?_⟩
  intro ops
  rcases exists_run_of_lanesFit (initial.lanesFit fun _ => lanes) ops with ⟨last, calls, ran⟩
  have lastWellFormed := wellFormed_run wellFormed ran
  refine ⟨last, calls, ran, wiring_run ran, lastWellFormed, inReach_of_wellFormed lastWellFormed,
    sized_run wellFormed ran, ?_⟩
  intro motor state throttle found bursts
  exact exists_written_burst lastWellFormed bursts found throttle

/-- Two motors on one channel and a third that is refused, with a burst, a capture that claims more
words than a mailbox holds, and operations on motors that are not there. -/
theorem tables_well_formed_of_shared_channel :
    let settings : MotorSettings := { motorCount := 3, burst := true }
    let answers : Nat → Except ClaimError Channel := fun motor =>
      if motor = 2 then .error .noDma else .ok { timer := ⟨7⟩, index := 3 }
    let ops : List Op := [.write 0 100, .write 200 48, .endFrame, .transferDone 1 .nothing,
      .transferDone 0 { words := List.replicate 40 9, count := 1000 }, .write 1 2047]
    ∃ link init last calls, connect settings {} answers = .ok (link, init) ∧
      link.run ops = .ok (last, calls) ∧ last.InReach ∧ last.members ⟨7⟩ = [0, 1] ∧
      (last.motor? 0).map (fun state => state.mailbox.count) = some 32 := by
  intro settings answers ops
  have fits : Timing.Fits {} := by decide
  have lanes : ∀ motor channel, motor < settings.claimCount → answers motor = .ok channel →
      channel.index.toNat < channelsPerTimer := by
    intro motor channel _ answer
    by_cases refused : motor = 2
    · simp [answers, refused] at answer
    · simp only [answers, refused, if_false, Except.ok.injEq] at answer
      subst answer
      decide
  rcases tables_well_formed fits settings answers lanes with ⟨link, init, connected, runs⟩
  rcases runs ops with ⟨last, calls, ran, _, _, inReach, _⟩
  have outcome : ((connect settings {} answers).toOption.bind fun built =>
      (built.1.run ops).toOption.map fun ended =>
        (ended.1.members ⟨7⟩, (ended.1.motor? 0).map fun state => state.mailbox.count)) =
      some ([0, 1], some 32) := by
    decide +kernel
  rw [connected, Except.toOption, Option.bind_some, ran, Except.toOption, Option.map_some,
    Option.some.injEq, Prod.mk.injEq] at outcome
  exact ⟨link, init, last, calls, connected, ran, inReach, outcome⟩

end Link

end Rotor

import Rotor.Proofs.Link.Freshness

/-!
# What a burst carries

With bursts the packets of four motors share one buffer, and the buffer is sent again with every
frame that is let out. `Link.laneOf` reads the lane of a channel. A write fills the lane of its own
channel (`Link.laneOf_staged_self`), and nothing else changes a lane (`Link.laneOf_effect`). So every
lane keeps the packet of the last write to its motor (`Link.laneOf_run`), or the zeros that it began
with, until a burst carries it out (`Link.laneOf_of_burst`).
-/

namespace Rotor

namespace Link

variable {link next last : Link} {op : Op} {ops : List Op} {calls made : List Call} {motor : Nat}
  {throttle : UInt16} {channel other : Channel} {timer : Timer} {words : List UInt32}

/-- The words that stand in the lane of a channel, none if its timer is not in service. -/
def laneOf (link : Link) (channel : Channel) : Option (List UInt32) :=
  (link.timer? channel.timer).map fun entry =>
    lane (entry.burst.take (link.encoding.frameLength * channelsPerTimer)) channel.index.toNat

/-- What the bursts of a link carry, `ops` being what was done with it since `first`. -/
structure CarriesLastWrites (settings : MotorSettings) (first : Link) (ops : List Op)
    (link : Link) : Prop where
  /-- A frame that is let out sends a burst on every timer that was written to. -/
  sent : link.commands.LetsOut → ∀ timer, first.wiring.Writes timer ops →
    ∃ words, .burst timer words ∈ link.endFrame.2
  /-- A burst has a word for each channel and symbol, and for each channel a zero after them. -/
  length_eq : ∀ timer words, .burst timer words ∈ link.endFrame.2 →
    words.length = channelsPerTimer * (settings.protocol.encoding.symbolCount + 1)
  /-- In the lane of a motor stands the packet that it was due at its last write. -/
  written : ∀ earlier motor throttle later channel words,
    ops = earlier ++ .write motor throttle :: later →
      (∀ other, .write motor other ∉ later) → first.wiring.channel? motor = some channel →
        .burst channel.timer words ∈ link.endFrame.2 →
          ∃ mid calls, first.run earlier = .ok (mid, calls) ∧ ∀ symbol : Nat,
            words[channelsPerTimer * symbol + channel.index.toNat]? =
              (settings.protocol.encoding.frame
                (duePacket mid.commands settings.telemetry motor throttle))[symbol]?
  /-- In the lane of no motor, or of one that was never written, stand zeros. -/
  unwritten : ∀ channel words, channel.index.toNat < channelsPerTimer →
    (∀ motor throttle, first.wiring.channel? motor = some channel → .write motor throttle ∉ ops) →
      .burst channel.timer words ∈ link.endFrame.2 →
        ∀ symbol ≤ settings.protocol.encoding.symbolCount,
          words[channelsPerTimer * symbol + channel.index.toNat]? = some 0
  /-- A write leaves the lanes of the other motors as they are. -/
  apart : ∀ motor throttle next made, link.step (.write motor throttle) = .ok (next, made) →
    ∀ other channel, other ≠ motor → first.wiring.channel? other = some channel →
      ∃ words, link.laneOf channel = some words ∧ next.laneOf channel = some words
  /-- Nothing but the end of a frame sends a burst. -/
  only_endFrame : ∀ op next made, op ≠ .endFrame → link.step op = .ok (next, made) →
    ∀ call ∈ made, call.startedTimer? = none

section Lanes

theorem laneOf_of_timers (wiring : next.wiring = link.wiring) (timers : next.timers = link.timers)
    (channel : Channel) : next.laneOf channel = link.laneOf channel := by
  have encoding : next.encoding = link.encoding := congrArg Wiring.encoding wiring
  rw [laneOf, laneOf, timer?, timer?, timers, encoding]

/-- A write fills its own lane. -/
theorem laneOf_staged_self (bursts : link.burst = true) (buffers : link.RoomyBuffers)
    (isLane : channel.index.toNat < channelsPerTimer)
    (inService : channel.timer ∈ link.wiring.timers) (motor : Nat) (throttle : UInt16) :
    (link.staged motor throttle channel).laneOf channel = some (link.wordsFor motor throttle) := by
  rcases exists_timer? inService with ⟨entry, found⟩
  rcases mem_of_timer? found with ⟨entryMem, onTimer⟩
  have filled := lane_take_place_self isLane (wordsFor_fit buffers entryMem motor throttle)
  rw [length_wordsFor] at filled
  rw [laneOf, timer?_staged, found, Option.map_some, Option.map_some, if_pos onTimer, if_pos bursts]
  exact congrArg some filled

/-- A write leaves every other lane as it is. -/
theorem laneOf_staged_of_ne (bursts : link.burst = true)
    (isLane : channel.index.toNat < channelsPerTimer)
    (otherLane : other.index.toNat < channelsPerTimer) (apart : other ≠ channel) (motor : Nat)
    (throttle : UInt16) :
    (link.staged motor throttle other).laneOf channel = link.laneOf channel := by
  have encoding : (link.staged motor throttle other).encoding = link.encoding := rfl
  rw [laneOf, laneOf, timer?_staged, encoding, Option.map_map]
  cases found : link.timer? channel.timer with
  | none => rfl
  | some entry =>
      have onTimer := (mem_of_timer? found).2
      rw [Option.map_some, Option.map_some, Function.comp_apply, bursts, if_pos rfl]
      split
      · next sameTimer =>
        have otherIndex := Channel.index_ne (onTimer.symm.trans sameTimer) apart.symm
        exact congrArg some (lane_take_place_of_ne isLane otherLane otherIndex)
      · rfl

/-- With bursts, nothing but a write changes what is staged. -/
theorem timers_effect_of_burst (bursts : link.burst = true) (effect : link.Effect op next made) :
    (next.timers = link.timers ∧
      ∀ motor throttle, op = .write motor throttle → link.motor? motor = none) ∨
    ∃ motor throttle state, op = .write motor throttle ∧ link.motor? motor = some state ∧
      next = link.staged motor throttle state.channel := by
  cases effect with
  | beginFrame => exact .inl ⟨timers_beginFrame link, by simp⟩
  | writeAbsent throttle absent =>
      refine .inl ⟨rfl, ?_⟩
      rintro _ _ ⟨⟩
      exact absent
  | write throttle found => exact .inr ⟨_, throttle, _, rfl, found, rfl⟩
  | endHeld held => exact .inl ⟨rfl, by simp⟩
  | endReleased released => exact .inl ⟨by simp [fire, TimerState.started, bursts], by simp⟩
  | transferDone target capture => exact .inl ⟨timers_transferDone link target capture, by simp⟩
  | send target command => exact .inl ⟨rfl, by simp⟩

/-- Whatever does not write a motor on the channel leaves its lane as it is. -/
theorem laneOf_effect (bursts : link.burst = true) (fit : link.wiring.LanesFit)
    (isLane : channel.index.toNat < channelsPerTimer)
    (unwritten : ∀ motor throttle, op = .write motor throttle →
      link.wiring.channel? motor ≠ some channel)
    (effect : link.Effect op next made) : next.laneOf channel = link.laneOf channel := by
  rcases timers_effect_of_burst bursts effect with ⟨timers, _⟩ |
    ⟨motor, throttle, state, rfl, found, rfl⟩
  · exact laneOf_of_timers (wiring_effect effect) timers channel
  · have wired := channel?_wiring found
    apply laneOf_staged_of_ne bursts isLane (fit bursts motor state.channel wired)
    rintro rfl
    exact unwritten motor throttle rfl wired

theorem laneOf_run (bursts : link.burst = true) (fit : link.wiring.LanesFit)
    (isLane : channel.index.toNat < channelsPerTimer)
    (unwritten : ∀ motor throttle, link.wiring.channel? motor = some channel →
      .write motor throttle ∉ ops)
    (run : link.run ops = .ok (last, calls)) : last.laneOf channel = link.laneOf channel := by
  refine step_induction (motive := fun ops mid _ =>
    (∀ motor throttle, link.wiring.channel? motor = some channel → .write motor throttle ∉ ops) →
      mid.laneOf channel = link.laneOf channel) (fun _ => rfl) ?_ run unwritten
  intro ops mid calls op next made earlier step before unwritten
  have wiring := wiring_run earlier
  have midBursts : mid.burst = true := (congrArg Wiring.burst wiring).trans bursts
  have kept := before fun motor throttle wired written =>
    unwritten motor throttle wired (List.mem_append_left _ written)
  rw [← kept]
  apply laneOf_effect midBursts (wiring ▸ fit) isLane ?_ (effect_of_step step)
  rintro motor throttle rfl wired
  exact unwritten motor throttle (wiring ▸ wired) (by simp)

/-- A write of one motor leaves the lane of another as it is. -/
theorem laneOf_step_write {motor other : Nat} (sound : link.Sound) (bursts : link.burst = true)
    (wired : link.wiring.channel? other = some channel) (differ : other ≠ motor)
    (step : link.step (.write motor throttle) = .ok (next, made)) :
    ∃ words, link.laneOf channel = some words ∧ next.laneOf channel = some words := by
  rcases exists_timer? (sound.wiring.known wired) with ⟨entry, found⟩
  have inLane : link.laneOf channel = some _ := congrArg (Option.map _) found
  refine ⟨_, inLane, ?_⟩
  rw [← inLane]
  apply laneOf_effect bursts sound.wiring.lanesFit (sound.wiring.index_lt wired) ?_
    (effect_of_step step)
  rintro _ _ ⟨⟩ motorWired
  exact differ (sound.wiring.distinct wired motorWired)

/-- The lane of a motor keeps the words of its last write. -/
theorem laneOf_run_write (sound : link.Sound) (bursts : link.burst = true)
    (wired : link.wiring.channel? motor = some channel)
    (unwritten : ∀ other, .write motor other ∉ ops)
    (run : link.run (.write motor throttle :: ops) = .ok (last, calls)) :
    last.laneOf channel = some (link.wordsFor motor throttle) := by
  rcases run_cons_eq_ok_iff.mp run with ⟨next, made, more, step, later, _⟩
  have effect := effect_of_step step
  have nextSound := sound_effect sound effect
  have wiring := wiring_effect effect
  have nextBursts : next.burst = true := (congrArg Wiring.burst wiring).trans bursts
  have isLane := sound.wiring.index_lt wired
  have kept : last.laneOf channel = next.laneOf channel := by
    refine laneOf_run nextBursts nextSound.wiring.lanesFit isLane ?_ later
    -- No other motor has the channel, so no other write can fill the lane.
    intro other value otherWired written
    rw [wiring] at otherWired
    cases sound.wiring.distinct wired otherWired
    exact unwritten value written
  rw [kept]
  cases effect with
  | writeAbsent throttle absent => simp [Link.wiring, absent] at wired
  | write throttle found =>
      cases (channel?_wiring found).symm.trans wired
      exact laneOf_staged_self bursts sound.buffers isLane (sound.wiring.known wired) motor throttle

end Lanes

section Sending

/-- A burst is what is staged for its timer. -/
theorem burst_of_endFrame (starts : .burst timer words ∈ link.endFrame.2) :
    link.burst = true ∧ ∃ entry ∈ link.timers, entry.timer = timer ∧ entry.burstLength ≠ 0 ∧
      words = entry.burst.take entry.burstLength := by
  generalize made : link.endFrame.2 = calls at starts
  have effect := effect_endFrame link
  generalize link.endFrame.1 = after at effect
  rw [made] at effect
  cases effect with
  | endHeld held => cases starts
  | endReleased released =>
      rcases mem_calls_fire.mp starts with ⟨entry, entryMem, started⟩
      have staged := exists_startCall?_iff.mp ⟨_, started⟩
      have call := eq_of_startCall? started
      split at call
      · next bursts =>
        rw [if_pos bursts] at staged
        cases call
        exact ⟨bursts, entry, entryMem, rfl, staged, rfl⟩
      · cases call

/-- A frame that is let out sends the burst of every timer that was written to. -/
theorem exists_burst_of_writes {first : Link} (tracks : Tracks first ops link)
    (bursts : link.burst = true) (lets : link.commands.LetsOut)
    (inService : timer ∈ link.wiring.timers) (writes : first.wiring.Writes timer ops) :
    ∃ words, .burst timer words ∈ link.endFrame.2 := by
  rcases List.mem_map.mp inService with ⟨entry, entryMem, rfl⟩
  have staged := (tracks.burst_iff bursts entry entryMem).mpr writes
  have starts : ∃ call, entry.startCall? link.burst = some call := by
    rw [exists_startCall?_iff, if_pos bursts]
    exact staged
  rcases starts with ⟨call, starts⟩
  have isBurst := eq_of_startCall? starts
  rw [if_pos bursts] at isBurst
  refine ⟨entry.burst.take entry.burstLength, ?_⟩
  rw [endFrame_of_letsOut tracks.commands lets, ← isBurst]
  exact mem_calls_fire.mpr ⟨entry, entryMem, starts⟩

/-- A burst is as long as a frame for each channel, and carries the lanes of its timer. -/
theorem laneOf_of_burst (nodup : link.wiring.timers.Nodup) (buffers : link.RoomyBuffers)
    (filled : link.Filled) (starts : .burst timer words ∈ link.endFrame.2) :
    words.length = link.encoding.frameLength * channelsPerTimer ∧
      ∀ index, link.laneOf ⟨timer, index⟩ = some (lane words index.toNat) := by
  rcases burst_of_endFrame starts with ⟨_, entry, entryMem, rfl, staged, rfl⟩
  refine ⟨length_take_burst buffers filled entryMem staged, fun index => ?_⟩
  rw [laneOf, timer?_of_mem nodup entryMem, (filled entry entryMem).resolve_left staged]
  rfl

end Sending

section Start

variable {settings : MotorSettings} {answers : Nat → Except ClaimError Channel}

/-- Before the first write all lanes hold zeros. -/
theorem Fresh.laneOf (fresh : link.Fresh settings answers)
    (inService : channel.timer ∈ link.wiring.timers) :
    link.laneOf channel = some (List.replicate settings.protocol.encoding.frameLength 0) := by
  rcases exists_timer? inService with ⟨entry, found⟩
  have room := frameLength_fits link.encoding
  rw [Link.laneOf, found, fresh.fresh_timer entry (mem_of_timer? found).1, Option.map_some,
    TimerState.ofTimer, List.take_replicate, Nat.min_eq_left room, lane_replicate_zero,
    Nat.mul_div_cancel _ (by decide), fresh.encoding_eq]

/-- Every burst of a run carries what stands in the lanes. -/
theorem Fresh.getElem?_burst (fresh : link.Fresh settings answers)
    (run : link.run ops = .ok (last, calls)) (isLane : channel.index.toNat < channelsPerTimer)
    (starts : .burst channel.timer words ∈ last.endFrame.2) {inLane : List UInt32}
    (isInLane : last.laneOf channel = some inLane) (symbol : Nat) :
    words[channelsPerTimer * symbol + channel.index.toNat]? = inLane[symbol]? := by
  have sound := sound_run fresh.sound run
  have filled := filled_run (filled_of_fresh fresh.fresh_timer) run
  rcases laneOf_of_burst sound.wiring.nodup sound.buffers filled starts with ⟨length, lanes⟩
  cases isInLane.symm.trans (lanes channel.index)
  exact getElem?_eq_lane length isLane symbol

theorem Fresh.getElem?_burst_of_written (fresh : link.Fresh settings answers)
    (bursts : link.burst = true) {earlier later : List Op}
    (run : link.run (earlier ++ .write motor throttle :: later) = .ok (last, calls))
    (unwritten : ∀ other, .write motor other ∉ later)
    (wired : link.wiring.channel? motor = some channel)
    (starts : .burst channel.timer words ∈ last.endFrame.2) :
    ∃ mid before, link.run earlier = .ok (mid, before) ∧ ∀ symbol : Nat,
      words[channelsPerTimer * symbol + channel.index.toNat]? =
        (settings.protocol.encoding.frame
          (duePacket mid.commands settings.telemetry motor throttle))[symbol]? := by
  rcases run_append_eq_ok_iff.mp run with ⟨mid, before, after, earlierRun, laterRun, _⟩
  have wiring := wiring_run earlierRun
  have midBursts : mid.burst = true := (congrArg Wiring.burst wiring).trans bursts
  have encoding : mid.encoding = settings.protocol.encoding :=
    (congrArg Wiring.encoding wiring).trans fresh.encoding_eq
  have telemetry : mid.telemetry = settings.telemetry :=
    (congrArg Wiring.telemetry wiring).trans fresh.telemetry_eq
  have inLane := laneOf_run_write (sound_run fresh.sound earlierRun) midBursts (wiring ▸ wired)
    unwritten laterRun
  rw [wordsFor, packetFor_eq_duePacket, encoding, telemetry] at inLane
  exact ⟨mid, before, earlierRun,
    fresh.getElem?_burst run (fresh.sound.wiring.index_lt wired) starts inLane⟩

theorem Fresh.getElem?_burst_of_unwritten (fresh : link.Fresh settings answers)
    (bursts : link.burst = true) (run : link.run ops = .ok (last, calls))
    (isLane : channel.index.toNat < channelsPerTimer)
    (unwritten : ∀ motor throttle, link.wiring.channel? motor = some channel →
      .write motor throttle ∉ ops)
    (starts : .burst channel.timer words ∈ last.endFrame.2) {symbol : Nat}
    (isSymbol : symbol ≤ settings.protocol.encoding.symbolCount) :
    words[channelsPerTimer * symbol + channel.index.toNat]? = some 0 := by
  have inService : channel.timer ∈ link.wiring.timers := by
    rcases burst_of_endFrame starts with ⟨_, entry, entryMem, onTimer, _⟩
    rw [← wiring_run run, ← onTimer]
    exact List.mem_map_of_mem entryMem
  have kept := laneOf_run bursts fresh.sound.wiring.lanesFit isLane unwritten run
  rw [fresh.getElem?_burst run isLane starts (kept.trans (fresh.laneOf inService)),
    List.getElem?_replicate]
  exact if_pos (Nat.lt_succ_of_le isSymbol)

end Start

/-- With bursts, where each motor has a channel of its own, a frame that is let out sends a burst on
every timer that was written to, and every burst is as long as a frame for each channel. In the lane of a motor stands the packet of its last write, whatever came after it,
and where nothing was written stand zeros. -/
theorem bursts_carry_last_writes {settings : MotorSettings} {timing : Timing}
    {answers : Nat → Except ClaimError Channel} (distinct : DistinctAnswers settings answers)
    (fits : timing.Fits) (bursts : settings.burst = true) :
    ∃ link init, connect settings timing answers = .ok (link, init) ∧
      ∀ ops, ∃ last calls, link.run ops = .ok (last, calls) ∧
        link.CarriesLastWrites settings ops last := by
  rcases exists_connect distinct fits with ⟨link, init, connected, fresh⟩
  refine ⟨link, init, connected, ?_⟩
  intro ops
  rcases exists_run fresh.sound ops with ⟨last, calls, run, sound, wiring⟩
  have linkBursts : link.burst = true := fresh.burst_eq.trans bursts
  have lastBursts : last.burst = true := (congrArg Wiring.burst wiring).trans linkBursts
  refine ⟨last, calls, run, ?_, ?_, ?_, ?_, ?_, ?_⟩
  · intro lets timer writes
    have tracks := (tracks_of_fresh fresh.sound.commands fresh.fresh_timer).run run
    have inService : timer ∈ last.wiring.timers := by
      rcases writes with ⟨motor, throttle, channel, _, wired, rfl⟩
      rw [wiring]
      exact fresh.sound.wiring.known wired
    exact exists_burst_of_writes tracks lastBursts lets inService writes
  · intro timer words starts
    have filled := filled_run (filled_of_fresh fresh.fresh_timer) run
    have encoding : last.encoding = settings.protocol.encoding :=
      (congrArg Wiring.encoding wiring).trans fresh.encoding_eq
    rw [(laneOf_of_burst sound.wiring.nodup sound.buffers filled starts).1, encoding, Nat.mul_comm]
    rfl
  · rintro earlier motor throttle later channel words rfl unwritten wired starts
    exact fresh.getElem?_burst_of_written linkBursts run unwritten wired starts
  · intro channel words isLane unwritten starts symbol isSymbol
    exact fresh.getElem?_burst_of_unwritten linkBursts run isLane unwritten starts isSymbol
  · intro motor throttle next made step other channel differ wired
    rw [← wiring] at wired
    exact laneOf_step_write sound lastBursts wired differ step
  · intro op next made notEnd step
    exact startedTimer?_of_effect (effect_of_step step) notEnd

/-- Six motors, of which the second is refused and only two are written. A command takes the place of
the last throttle value of motor 2, while motor 0 keeps the value of the frame that was held back. -/
theorem bursts_carry_last_writes_beside_command :
    ∃ link init last calls,
      connect { motorCount := 6, protocol := .proshot1000, burst := true } { gyroMicros := 10000 }
        (Bench.inOrder [(1, .noTimer)]).answer = .ok (link, init) ∧
      link.run [.write 0 100, .write 2 200, .send .all .beacon1, .endFrame, .write 2 300] =
        .ok (last, calls) ∧
      link.CarriesLastWrites { motorCount := 6, protocol := .proshot1000, burst := true }
        [.write 0 100, .write 2 200, .send .all .beacon1, .endFrame, .write 2 300] last ∧
      last.endFrame.2 = [.burst ⟨0⟩
        [24, 0, 24, 0,  60, 0, 24, 0,  48, 0, 33, 0,  57, 0, 60, 0,  0, 0, 0, 0]] := by
  have fits : Timing.Fits { gyroMicros := 10000 } := by decide
  rcases bursts_carry_last_writes (Bench.distinctAnswers_inOrder [(1, .noTimer)]
    { motorCount := 6, protocol := .proshot1000, burst := true }) fits rfl with
    ⟨link, init, connected, carries⟩
  rcases carries [.write 0 100, .write 2 200, .send .all .beacon1, .endFrame, .write 2 300] with
    ⟨last, calls, ran, carriesLast⟩
  have outcome : ∃ link init last calls,
      connect { motorCount := 6, protocol := .proshot1000, burst := true } { gyroMicros := 10000 }
        (Bench.inOrder [(1, .noTimer)]).answer = .ok (link, init) ∧
      link.run [.write 0 100, .write 2 200, .send .all .beacon1, .endFrame, .write 2 300] =
        .ok (last, calls) ∧
      last.endFrame.2 = [.burst ⟨0⟩
        [24, 0, 24, 0,  60, 0, 24, 0,  48, 0, 33, 0,  57, 0, 60, 0,  0, 0, 0, 0]] :=
    ⟨_, _, _, _, rfl, rfl, rfl⟩
  rcases outcome with ⟨_, _, _, _, sameConnected, sameRan, sent⟩
  cases connected.symm.trans sameConnected
  cases ran.symm.trans sameRan
  exact ⟨link, init, last, calls, connected, ran, carriesLast, sent⟩

end Link

end Rotor

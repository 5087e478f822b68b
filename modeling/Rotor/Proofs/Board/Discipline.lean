import Rotor.Proofs.Board.Listening
import Rotor.Proofs.Board.Streams
import Rotor.Proofs.Link.Freshness
import Rotor.Proofs.Link.Turns

/-!
# The streams under a link

A link makes only calls that the board is made for: all its channels are channels of the board, a
frame has the words of its encoding, and a capture as many as a reply. When the link is connected
every claim lets the stream of its channel follow the request of the channel, which is all that
loading the channel relies on. So whatever is done with the link, in whatever order, the streams are
handled as `Board.Disciplined` says.
-/

namespace Rotor

namespace Board

open Link (Op Assignment)

variable {origin : Board} {registers : Registers} {encoding : Encoding} {burst : Bool} {count : Nat}
  {calls : List Call} {call : Call}

section Connecting

/-- A call that brings a claimed channel into service. -/
def parks : Call → Bool
  | .setUpTimer _ _ | .drive _ | .enable _ => true
  | _ => false

/-- The calls of a link that is being connected, the claims of the first `count` motors being
answered. Without bursts, every channel that was claimed follows its own request. -/
structure Parked (origin : Board) (registers : Registers) (encoding : Encoding) (burst : Bool)
    (count : Nat) (calls : List Call) : Prop where
  fitting : ∀ call ∈ calls, Fitting encoding burst call
  unloaded : ∀ target words, .load target words ∉ calls
  free : ∀ motor, count ≤ motor → motor < motorCount →
    (origin.performAll calls).1.claimed.contains (UInt8.ofNat motor) = false
  routes : burst = false → ∀ motor < count, motor < motorCount →
    (registers.afterCalls origin calls).RoutesOwn motor

theorem parked_nil (clock busyReads : Nat) (registers : Registers) (encoding : Encoding)
    (burst : Bool) : Parked (new clock busyReads) registers encoding burst 0 [] := by
  refine ⟨by simp, by simp, ?_, by simp⟩
  intro motor _ _
  exact ChannelSet.contains_empty _

theorem performAll_concat (board : Board) (calls : List Call) (call : Call) :
    (board.performAll (calls ++ [call])).1 = ((board.performAll calls).1.perform call).1 := by
  rw [Registers.performAll_append]
  rfl

theorem afterCalls_concat (registers : Registers) (board : Board) (calls : List Call)
    (call : Call) :
    registers.afterCalls board (calls ++ [call]) =
      (registers.afterCalls board calls).replay ((board.performAll calls).1.perform call).2 := by
  rw [Registers.afterCalls_append, Registers.afterCalls_cons, Registers.afterCalls_nil]

theorem Parked.park (parked : Parked origin registers encoding burst count calls)
    (parking : parks call = true) :
    Parked origin registers encoding burst count (calls ++ [call]) := by
  have fits : Fitting encoding burst call := by
    cases call <;> first | exact trivial | cases parking
  have claimed (board : Board) : (board.perform call).1.claimed = board.claimed := by
    cases call <;> first | rfl | cases parking
  refine ⟨?_, ?_, ?_, ?_⟩
  · exact List.forall_mem_append.mpr ⟨parked.fitting, by simpa using fits⟩
  · intro target words loads
    rcases List.mem_append.mp loads with earlier | last
    · exact parked.unloaded target words earlier
    · rw [← List.mem_singleton.mp last] at parking
      cases parking
  · intro motor later onBoard
    rw [performAll_concat, claimed]
    exact parked.free motor later onBoard
  · rintro rfl motor earlier onBoard
    rw [afterCalls_concat]
    exact routesOwn_perform fits (parked.routes rfl motor earlier onBoard) _

theorem contains_single_of_ne {motor other : Nat} (onBoard : motor < motorCount)
    (otherOnBoard : other < motorCount) (differ : motor ≠ other) :
    (ChannelSet.single (UInt8.ofNat motor)).contains (UInt8.ofNat other) = false := by
  simp only [motorCount] at onBoard otherOnBoard
  interval_cases motor <;> interval_cases other <;> first | rfl | exact absurd rfl differ

/-- The claim of a motor of the board is accepted if its channel is free. -/
theorem perform_claim_of_free {board : Board} {motor : Nat} (onBoard : motor < motorCount)
    (free : board.claimed.contains (UInt8.ofNat motor) = false) (burst : Bool) :
    board.perform (.claim motor burst) =
      ({ board with burst, claimed := board.claimed.union (.single (UInt8.ofNat motor)) },
        claimAccesses motor burst) := by
  have answer : board.answer motor = .ok { timer, index := UInt8.ofNat motor } := by
    simp [answer, Nat.not_le.mpr onBoard, free]
  simp only [perform, answer]
  rfl

theorem routesOwn_claimAccesses (registers : Registers) (motor : Nat) :
    (registers.replay (claimAccesses motor false)).RoutesOwn motor := by
  simp only [claimAccesses, Bool.false_eq_true, false_and, if_false, Registers.replay_append]
  unfold Registers.RoutesOwn Registers.route
  rw [Registers.field?_routeAccesses, if_pos rfl]

/-- The next motor is claimed. -/
theorem Parked.claim (parked : Parked origin registers encoding burst count calls) :
    Parked origin registers encoding burst (count + 1) (calls ++ [.claim count burst]) := by
  -- No motor is claimed twice, so the claim finds its channel free as long as it is on the board.
  refine ⟨?_, ?_, ?_, ?_⟩
  · refine List.forall_mem_append.mpr ⟨parked.fitting, ?_⟩
    intro call callMem
    rw [List.mem_singleton.mp callMem]
    rfl
  · simpa using parked.unloaded
  · intro motor later onBoard
    have free := parked.free motor (Nat.le_of_succ_le later) onBoard
    have countOnBoard : count < motorCount := Nat.lt_trans later onBoard
    rw [performAll_concat,
      perform_claim_of_free countOnBoard (parked.free count (Nat.le_refl count) countOnBoard)]
    simp only [ChannelSet.contains_union, free, Bool.false_or]
    exact contains_single_of_ne countOnBoard onBoard (Nat.ne_of_lt later)
  · rintro rfl motor earlier onBoard
    have fits : Fitting encoding false (.claim count false) := rfl
    rw [afterCalls_concat]
    rcases Nat.lt_succ_iff_lt_or_eq.mp earlier with before | rfl
    · exact routesOwn_perform fits (parked.routes rfl motor before onBoard) _
    · rw [perform_claim_of_free onBoard (parked.free motor (Nat.le_refl motor) onBoard)]
      exact routesOwn_claimAccesses _ motor

theorem Parked.introduce {assignment : Assignment}
    (parked : Parked origin registers encoding burst count assignment.calls) (protocol : Protocol)
    (timer : Timer) :
    Parked origin registers encoding burst count (assignment.introduce protocol timer).calls := by
  unfold Assignment.introduce
  split
  · exact parked
  · exact parked.park rfl

theorem Parked.attach {assignment : Assignment}
    (parked : Parked origin registers encoding burst count assignment.calls) (channel : Channel) :
    Parked origin registers encoding burst count (assignment.attach channel).calls := by
  unfold Assignment.attach
  split
  · have driven : Parked origin registers encoding burst count
        (assignment.calls ++ [.drive channel]) := parked.park rfl
    have enabled : Parked origin registers encoding burst count
        (assignment.calls ++ [.drive channel] ++ [.enable channel]) := driven.park rfl
    simpa using enabled
  · exact parked

theorem parked_claimAll (clock busyReads : Nat) (settings : MotorSettings)
    (answers : Nat → Except ClaimError Channel) :
    Parked (new clock busyReads) registers encoding settings.burst settings.claimCount
      (Link.claimAll settings answers).calls := by
  refine Assignment.claimAll_induction (motive := fun count assignment =>
    Parked (new clock busyReads) registers encoding settings.burst count assignment.calls)
    (parked_nil clock busyReads registers encoding settings.burst) ?_
  intro count assignment parked
  unfold Assignment.claim
  cases answers count with
  | error refusal => exact parked.claim
  | ok channel => exact (parked.claim.introduce settings.protocol channel.timer).attach channel

end Connecting

section Running

variable {link next last : Link} {op : Op} {ops : List Op} {motor : Nat} {state : MotorState}

/-- Every motor with a channel is a motor of the board, on the channel that has its number. -/
def OnBoard (wiring : Wiring) : Prop :=
  ∀ motor channel, wiring.channel? motor = some channel →
    channel.index.toNat = motor ∧ motor < motorCount

/-- A call that the board is made for, and that loads only channels of motors. -/
structure Suits (wiring : Wiring) (call : Call) : Prop where
  fitting : Fitting wiring.encoding wiring.burst call
  wired : ∀ target words, call = .load target words →
    ∃ motor, wiring.channel? motor = some target

theorem index_lt_of_onBoard (onBoard : OnBoard link.wiring)
    (found : link.motor? motor = some state) : state.channel.index.toNat < motorCount := by
  rcases onBoard motor state.channel (Link.channel?_wiring found) with ⟨same, inRange⟩
  rwa [same]

theorem suits_beginFrame (onBoard : OnBoard link.wiring) :
    ∀ call ∈ link.beginFrame.2, Suits link.wiring call := by
  intro call callMem
  rcases Bool.eq_false_or_eq_true link.telemetry with speaking | silent
  · rw [Link.calls_beginFrame speaking, List.mem_append, List.mem_flatMap, List.mem_map] at callMem
    rcases callMem with ⟨state, stateMem, callMem⟩ | ⟨state, _, rfl⟩
    · rcases Link.mem_connected.mp stateMem with ⟨motor, found⟩
      rcases Link.mem_beginCalls callMem with rfl | rfl
      · exact ⟨index_lt_of_onBoard onBoard found, nofun⟩
      · exact ⟨trivial, nofun⟩
    · exact ⟨trivial, nofun⟩
  · simp [Link.beginFrame_of_silent silent] at callMem

theorem suits_fire (sound : link.Sound) (filled : link.Filled) :
    ∀ call ∈ link.fire.2, Suits link.wiring call := by
  intro call callMem
  rcases Link.mem_calls_fire.mp callMem with ⟨entry, _, starts⟩
  have started := Link.eq_of_startCall? starts
  rcases Bool.eq_false_or_eq_true link.burst with bursts | single
  · rw [bursts, if_pos rfl] at started
    subst started
    exact ⟨⟨bursts, Link.length_of_burst_mem_fire sound.buffers filled callMem⟩, nofun⟩
  · rw [single] at started
    subst started
    exact ⟨trivial, nofun⟩

theorem suits_transferDone (onBoard : OnBoard link.wiring) {target : Nat}
    (inRange : target < motorCount) (capture : Capture) :
    ∀ call ∈ (link.transferDone target capture).2, Suits link.wiring call := by
  have acknowledged : Suits link.wiring (.acknowledge target) := ⟨inRange, nofun⟩
  cases found : link.motor? target with
  | none =>
      rw [Link.transferDone_of_absent found]
      simpa using acknowledged
  | some state =>
      have halted : Suits link.wiring (.halt state.channel) :=
        ⟨index_lt_of_onBoard onBoard found, nofun⟩
      cases direction : state.direction with
      | input =>
          have fetched (room : Nat) : Suits link.wiring (.fetch state.channel room) :=
            ⟨trivial, nofun⟩
          rw [Link.transferDone_of_input found direction]
          by_cases empty : state.mailbox.phase = .empty
          · simp [Link.received_of_empty empty, acknowledged, halted, fetched]
          · simp [Link.received_of_taken empty, acknowledged, halted]
      | output =>
          have stopped : Suits link.wiring (link.stopCall state.channel) := by
            unfold Link.stopCall
            split
            · exact ⟨trivial, nofun⟩
            · exact halted
          have flipped (chosen : Nat → MotorState → Bool) :
              ∀ call ∈ (link.flipWhere chosen).2, Suits link.wiring call := by
            intro call callMem
            rw [Link.calls_flipWhere, mem_flipsOf] at callMem
            rcases callMem with ⟨channel, channelMem, turns⟩
            rcases List.mem_map.mp channelMem with ⟨turned, turnedMem, rfl⟩
            rcases Link.mem_turned.mp turnedMem with ⟨motor, turnedFound, _⟩
            rcases turns with rfl | rfl
            · exact ⟨trivial, nofun⟩
            · exact ⟨⟨index_lt_of_onBoard onBoard turnedFound, rfl⟩, nofun⟩
          rw [Link.transferDone_of_output found direction]
          rcases Bool.eq_false_or_eq_true link.telemetry with speaking | silent
          · rw [Link.sent_of_speaking speaking]
            simp only [List.forall_mem_append, List.forall_mem_cons]
            exact ⟨⟨stopped, flipped _⟩, acknowledged, by simp⟩
          · rw [Link.sent_of_silent silent]
            simp [stopped, acknowledged]

/-- Every call of a link suits the board, if only motors of the board complete. -/
theorem suits_effect (onBoard : OnBoard link.wiring) (sound : link.Sound) (filled : link.Filled)
    (completes : ∀ target capture, op = .transferDone target capture → target < motorCount)
    (effect : link.Effect op next calls) : ∀ call ∈ calls, Suits link.wiring call := by
  cases effect with
  | beginFrame => exact suits_beginFrame onBoard
  | writeAbsent throttle absent => simp
  | write throttle found =>
      split
      · simp
      · next single =>
        intro call callMem
        rw [List.mem_singleton.mp callMem]
        refine ⟨⟨Bool.eq_false_iff.mpr single, index_lt_of_onBoard onBoard found, ?_⟩, ?_⟩
        · exact Link.length_wordsFor link _ throttle
        · rintro target words same
          cases same
          exact ⟨_, Link.channel?_wiring found⟩
  | endHeld held => simp
  | endReleased released =>
      have ticked := Queue.sound_tick sound.commands
      rw [released] at ticked
      exact suits_fire (Link.sound_withCommands sound ticked) filled
  | transferDone target capture =>
      exact suits_transferDone onBoard (completes target capture rfl) capture
  | send target command => simp

theorem suits_run (onBoard : OnBoard link.wiring) (sound : link.Sound) (filled : link.Filled)
    (completes : ∀ target capture, .transferDone target capture ∈ ops → target < motorCount)
    (run : link.run ops = .ok (last, calls)) : ∀ call ∈ calls, Suits link.wiring call := by
  have kept : last.Filled ∧ ∀ call ∈ calls, Suits link.wiring call := by
    refine Link.run_induction (motive := fun ops last calls =>
      (∀ target capture, .transferDone target capture ∈ ops → target < motorCount) →
        last.Filled ∧ ∀ call ∈ calls, Suits link.wiring call) sound ?_ ?_ run completes
    · intro _
      exact ⟨filled, by simp⟩
    · intro ops mid calls op next made _ midSound wiring before effect completes
      have earlier := before fun target capture opMem =>
        completes target capture (List.mem_append_left _ opMem)
      refine ⟨Link.filled_effect earlier.1 effect, List.forall_mem_append.mpr ⟨earlier.2, ?_⟩⟩
      rw [← wiring]
      refine suits_effect (wiring ▸ onBoard) midSound earlier.1 ?_ effect
      rintro target capture rfl
      exact completes target capture (List.mem_append_right _ List.mem_cons_self)
  exact kept.2

end Running

section Connected

variable {clock busyReads : Nat} {settings : MotorSettings} {link : Link}

theorem onBoard_of_fresh (fresh : link.Fresh settings (new clock busyReads).answer) :
    OnBoard link.wiring := by
  intro motor channel wired
  rcases Link.exists_motor?_of_channel? wired with ⟨state, found, rfl⟩
  rcases fresh.fresh_motor found with ⟨channel, answer, rfl⟩
  exact ⟨index_of_answer answer, (eq_of_answer answer).1⟩

end Connected

/-- Whatever is done with a link, in whatever order, the board touches only the streams of motors,
stops a stream and clears its flags before it is enabled again, and enables it only for the frame or
the reply of its own channel, or with bursts for the frames of all channels. -/
theorem streams_disciplined {timing : Timing} (fits : timing.Fits) (settings : MotorSettings)
    (clock busyReads : Nat) :
    ∃ link init, Link.connect settings timing (new clock busyReads).answer = .ok (link, init) ∧
      (∀ access ∈ completedAccesses, access.Confined) ∧
      ∀ ops : List Op,
        (∀ motor capture, .transferDone motor capture ∈ ops → motor < motorCount) →
          ∃ last calls, link.run ops = .ok (last, calls) ∧
            ∀ registers, Disciplined (new clock busyReads) settings.protocol.encoding
              settings.burst registers ((new clock busyReads).performAll (init ++ calls)).2 := by
  rcases Link.exists_connect (distinctAnswers_new clock busyReads settings) fits with
    ⟨link, init, connected, fresh⟩
  refine ⟨link, init, connected, by decide, ?_⟩
  intro ops completes
  rcases Link.exists_run fresh.sound ops with ⟨last, calls, ran, _, _⟩
  refine ⟨last, calls, ran, ?_⟩
  intro registers
  have onBoard := onBoard_of_fresh fresh
  have suits := suits_run onBoard fresh.sound (Link.filled_of_fresh fresh.fresh_timer) completes ran
  have parked : Parked (new clock busyReads) registers settings.protocol.encoding settings.burst
      settings.claimCount init := by
    rcases Link.connect_of_fits fits settings (new clock busyReads).answer with ⟨_, same⟩
    cases connected.symm.trans same
    exact parked_claimAll clock busyReads settings _
  have fitting : ∀ call ∈ calls, Fitting settings.protocol.encoding settings.burst call := by
    intro call callMem
    rw [← fresh.encoding_eq, ← fresh.burst_eq]
    exact (suits call callMem).fitting
  rw [Registers.performAll_append]
  apply Disciplined.append
  · apply disciplined_performAll rfl parked.fitting
    intro target words loads
    exact absurd loads (parked.unloaded target words)
  · apply disciplined_performAll (busyReads_performAll _ init) fitting
    intro target words loads
    have single := (fitting _ loads).1
    rcases (suits _ loads).wired target words rfl with ⟨motor, wired⟩
    rcases onBoard motor target wired with ⟨same, inRange⟩
    rcases Link.exists_motor?_of_channel? wired with ⟨state, found, _⟩
    rw [same]
    exact parked.routes single motor (fresh.motorCount_eq ▸ Link.lt_motorCount_of_motor? found)
      inRange

/-- With bursts, a flip takes the stream of the burst for a capture, and the next frame takes it
back: the stream is enabled three times. -/
theorem streams_disciplined_around_flip :
    ∃ link init last calls,
      Link.connect { burst := true } {} (new 240000000 2).answer = .ok (link, init) ∧
      link.run (Link.frameOps 4 (fun _ => 100) ++ [.transferDone 2 .nothing,
        .transferDone 0 .nothing] ++ Link.frameOps 4 fun _ => 90) = .ok (last, calls) ∧
      ((new 240000000 2).performAll (init ++ calls)).2.countP (Access.enables firstStream) = 3 ∧
      Disciplined (new 240000000 2) .bits true .zero
        ((new 240000000 2).performAll (init ++ calls)).2 := by
  have fits : Timing.Fits {} := by decide
  have completes : ∀ motor capture, .transferDone motor capture ∈
      Link.frameOps 4 (fun _ => 100) ++ [.transferDone 2 .nothing, .transferDone 0 .nothing] ++
        Link.frameOps 4 (fun _ => 90) → motor < motorCount := by
    intro motor capture opMem
    simp only [Link.frameOps, Link.writeOps, List.mem_append, List.mem_cons, List.mem_map,
      List.not_mem_nil, Op.transferDone.injEq, reduceCtorEq, and_false, exists_false, or_false,
      false_or] at opMem
    rcases opMem with ⟨rfl, _⟩ | ⟨rfl, _⟩ <;> decide
  rcases streams_disciplined fits { burst := true } 240000000 2 with
    ⟨link, init, connected, _, disciplined⟩
  rcases disciplined _ completes with ⟨last, calls, ran, handled⟩
  have started : ((new 240000000 2).performAll (init ++ calls)).2.countP
      (Access.enables firstStream) = 3 := by
    cases connected
    cases ran
    decide +kernel
  exact ⟨link, init, last, calls, connected, ran, started, handled .zero⟩

end Board

end Rotor

import Rotor.Proofs.Link.Connected
import Rotor.Proofs.Link.Staging
import Rotor.Proofs.Link.Turns

/-!
# The link and its calls agree on directions

`Link.Mirrors` says that a link agrees with the calls made so far: the direction of every motor is
the last turn of its channel, every channel that was turned to input was at output and is armed at
once, and the flips are counted. Every operation keeps this. With bursts it also keeps the motors of
one timer at one direction (`Link.Uniform`), so a completed output finds none of them turned
already.
-/

namespace Rotor

namespace Link

variable {link next last : Link} {ops : List Op} {calls trace made : List Call} {motor room : Nat}
  {state : MotorState}

section Mirroring

/-- The channel of a motor and the way it drives its wire. -/
def facing (link : Link) (motor : Nat) : Option (Channel × Direction) :=
  (link.motor? motor).map fun state => (state.channel, state.direction)

theorem facing_of_motor? (found : link.motor? motor = some state) :
    link.facing motor = some (state.channel, state.direction) := by
  simp [facing, found]

theorem exists_motor?_of_facing {channel : Channel} {direction : Direction}
    (faces : link.facing motor = some (channel, direction)) :
    ∃ state, link.motor? motor = some state ∧ state.channel = channel ∧
      state.direction = direction := by
  simpa [facing] using faces

/-- A link agrees with the calls made so far: every channel was last turned the way its motor faces,
only channels at output were turned to input, each of them was armed at once, and the flips are
counted. -/
structure Mirrors (room : Nat) (link : Link) (trace : List Call) : Prop where
  turned : ∀ {motor channel direction}, link.facing motor = some (channel, direction) →
    lastTurn channel trace = some direction
  armed : ArmsAtOnce room [] trace
  listens : link.counters.flips = UInt32.ofNat (trace.countP Call.isListen)
  arms : link.counters.flips = UInt32.ofNat (trace.countP Call.isArm)

/-- As long as no channel is turned to input or armed, only the last turns matter. -/
theorem Mirrors.of_no_listen (mirrors : Mirrors room link trace)
    (turned : ∀ {motor channel direction}, next.facing motor = some (channel, direction) →
      lastTurn channel (trace ++ made) = some direction)
    (flips : next.counters.flips = link.counters.flips)
    (quiet : ∀ call ∈ made, call.isListen = false ∧ call.isArm = false) :
    Mirrors room next (trace ++ made) := by
  have noListen : made.countP Call.isListen = 0 := by
    simpa [List.countP_eq_zero] using fun call callMem => (quiet call callMem).1
  have noArm : made.countP Call.isArm = 0 := by
    simpa [List.countP_eq_zero] using fun call callMem => (quiet call callMem).2
  refine ⟨turned, armsAtOnce_append mirrors.armed (armsAtOnce_of_no_listen ?_), ?_, ?_⟩
  · exact fun call callMem => (quiet call callMem).1
  · rw [flips, List.countP_append, noListen]
    exact mirrors.listens
  · rw [flips, List.countP_append, noArm]
    exact mirrors.arms

/-- What turns no motor and makes no call that turns or arms a channel keeps the agreement. -/
theorem Mirrors.still (mirrors : Mirrors room link trace)
    (facing : ∀ motor, next.facing motor = link.facing motor)
    (flips : next.counters.flips = link.counters.flips)
    (still : ∀ call ∈ made, call.isStill = true) : Mirrors room next (trace ++ made) := by
  refine mirrors.of_no_listen ?_ flips ?_
  · intro motor channel direction faces
    rw [lastTurn_append, lastTurn_of_isStill still, Option.none_or]
    exact mirrors.turned (facing motor ▸ faces)
  · intro call callMem
    have stillCall := still call callMem
    exact ⟨Call.isListen_of_isStill stillCall, Call.isArm_of_isStill stillCall⟩

theorem facing_beginFrame (speaking : link.telemetry = true) (motor : Nat) :
    link.beginFrame.1.facing motor =
      (link.motor? motor).map fun state => (state.channel, .output) := by
  rw [facing, motor?_beginFrame speaking, Option.map_map]
  rfl

theorem flips_noteReply (counters : Counters) (motor : Nat) (reply : Reply) :
    (counters.noteReply motor reply).flips = counters.flips := by
  unfold Counters.noteReply
  split <;> rfl

theorem flips_noteReplies (counters : Counters) (encoding : Encoding) (first : Nat)
    (motors : List (Option MotorState)) :
    (counters.noteReplies encoding first motors).flips = counters.flips := by
  induction motors generalizing counters first with
  | nil => rfl
  | cons motor rest ih =>
      cases motor with
      | none => exact ih counters (first + 1)
      | some state => exact (ih _ _).trans (flips_noteReply counters first _)

@[simp]
theorem flips_beginFrame (link : Link) :
    link.beginFrame.1.counters.flips = link.counters.flips := by
  unfold beginFrame
  split
  · exact flips_noteReplies _ _ _ _
  · rfl

theorem Mirrors.beginFrame (mirrors : Mirrors room link trace) :
    Mirrors room link.beginFrame.1 (trace ++ link.beginFrame.2) := by
  rcases Bool.eq_false_or_eq_true link.telemetry with speaking | silent
  · refine mirrors.of_no_listen ?_ (flips_beginFrame link) fun _ => quiet_of_mem_beginFrame
    intro motor channel direction faces
    rw [facing_beginFrame speaking] at faces
    rcases Option.map_eq_some_iff.mp faces with ⟨state, found, same⟩
    obtain ⟨rfl, rfl⟩ := Prod.mk.inj same
    have driven := lastTurn_of_no_listen (drive_mem_beginFrame speaking found)
      fun call callMem => (quiet_of_mem_beginFrame callMem).1
    rw [lastTurn_append, driven]
    rfl
  · rw [beginFrame_of_silent silent, List.append_nil]
    exact mirrors

theorem facing_flipWhere (link : Link) (chosen : Nat → MotorState → Bool) (motor : Nat) :
    (link.flipWhere chosen).1.facing motor = (link.motor? motor).map fun state =>
      (state.channel, if chosen motor state && state.direction == .output then .input
        else state.direction) := by
  rw [facing, motor?_flipWhere, Option.map_map]
  congr 1
  funext state
  simp only [Function.comp_apply]
  split <;> rfl

/-- Turning motors to input keeps the agreement. -/
theorem Mirrors.flipWhere (mirrors : Mirrors room link trace) (sound : link.wiring.Sound)
    (capture : link.encoding.captureLength = room) (chosen : Nat → MotorState → Bool) :
    Mirrors room (link.flipWhere chosen).1 (trace ++ (link.flipWhere chosen).2) := by
  have agrees {motor : Nat} {state : MotorState} (found : link.motor? motor = some state) :
      lastTurn state.channel trace = some state.direction :=
    mirrors.turned (facing_of_motor? found)
  rw [calls_flipWhere, capture]
  refine ⟨?_, armsAtOnce_append mirrors.armed (armsAtOnce_flipsOf (nodup_turned sound chosen) ?_),
    ?_, ?_⟩
  · intro motor channel direction faces
    rw [facing_flipWhere] at faces
    rcases Option.map_eq_some_iff.mp faces with ⟨state, found, same⟩
    obtain ⟨rfl, rfl⟩ := Prod.mk.inj same
    rw [lastTurn_append]
    split
    · next flips =>
      rw [Bool.and_eq_true, beq_iff_eq, ← channel_mem_turned_iff sound found] at flips
      rw [lastTurn_flipsOf_of_mem flips]
      rfl
    · next keeps =>
      rw [Bool.and_eq_true, beq_iff_eq, ← channel_mem_turned_iff sound found] at keeps
      rw [lastTurn_flipsOf_of_not_mem keeps, Option.none_or]
      exact agrees found
  · intro channel channelMem
    rcases List.mem_map.mp channelMem with ⟨state, stateMem, rfl⟩
    rcases mem_turned.mp stateMem with ⟨motor, found, _, driving⟩
    rw [List.nil_append, agrees found, driving]
  · rw [flips_flipWhere, List.countP_append, countP_isListen_flipsOf, List.length_map,
      mirrors.listens, UInt32.ofNat_add]
  · rw [flips_flipWhere, List.countP_append, countP_isArm_flipsOf, List.length_map,
      mirrors.arms, UInt32.ofNat_add]

theorem facing_received {target : Nat} (found : link.motor? target = some state)
    (capture : Capture) (motor : Nat) :
    (link.received target state capture).1.facing motor = link.facing motor :=
  map_motor?_received _ (fun _ _ => rfl) found capture motor

theorem isStill_stopCall (link : Link) (channel : Channel) :
    (link.stopCall channel).isStill = true := by
  unfold stopCall
  split <;> rfl

/-- A completed transfer takes back its completion flag last and once. -/
theorem exists_transferDone_snd (link : Link) (motor : Nat) (capture : Capture) :
    ∃ before, (link.transferDone motor capture).2 = before ++ [.acknowledge motor] ∧
      ∀ other, .acknowledge other ∉ before := by
  cases found : link.motor? motor with
  | none => exact ⟨[], by rw [transferDone_of_absent found, List.nil_append], by simp⟩
  | some state =>
      cases direction : state.direction with
      | input =>
          refine ⟨_, by rw [transferDone_of_input found direction], ?_⟩
          by_cases empty : state.mailbox.phase = .empty
          · simp [received_of_empty empty]
          · simp [received_of_taken empty]
      | output =>
          have notStop (other : Nat) : .acknowledge other ≠ link.stopCall state.channel := by
            unfold stopCall
            split <;> simp
          refine ⟨_, by rw [transferDone_of_output found direction], ?_⟩
          intro other
          rcases Bool.eq_false_or_eq_true link.telemetry with speaking | silent
          · rw [sent_of_speaking speaking, calls_flipWhere]
            simp [notStop, mem_flipsOf]
          · rw [sent_of_silent silent]
            simpa using notStop other

theorem Mirrors.transferDone (mirrors : Mirrors room link trace) (sound : link.wiring.Sound)
    (room_eq : link.encoding.captureLength = room) (motor : Nat) (capture : Capture) :
    Mirrors room (link.transferDone motor capture).1
      (trace ++ (link.transferDone motor capture).2) := by
  have stopped (channel : Channel) : Mirrors room link (trace ++ [link.stopCall channel]) := by
    refine mirrors.still (fun _ => rfl) rfl ?_
    simpa using isStill_stopCall link channel
  -- The stop in front and the acknowledgement behind turn nothing; what is between them may.
  have acknowledged {next : Link} {trace : List Call} (mirrors : Mirrors room next trace) :
      Mirrors room next (trace ++ [.acknowledge motor]) :=
    mirrors.still (fun _ => rfl) rfl (by simp [Call.isStill])
  cases found : link.motor? motor with
  | none =>
      rw [transferDone_of_absent found]
      exact acknowledged mirrors
  | some state =>
      cases direction : state.direction with
      | input =>
          rw [transferDone_of_input found direction]
          dsimp only
          rw [← List.append_assoc]
          apply acknowledged
          refine mirrors.still (facing_received found capture) (by rw [received_fst]) ?_
          by_cases empty : state.mailbox.phase = .empty
          · simp [received_of_empty empty, Call.isStill]
          · simp [received_of_taken empty, Call.isStill]
      | output =>
          rw [transferDone_of_output found direction]
          dsimp only
          rw [← List.append_assoc]
          apply acknowledged
          rcases Bool.eq_false_or_eq_true link.telemetry with speaking | silent
          · rw [sent_of_speaking speaking]
            dsimp only
            rw [List.append_cons]
            exact (stopped state.channel).flipWhere sound room_eq _
          · rw [sent_of_silent silent]
            exact stopped state.channel

theorem facing_staged (link : Link) (target : Nat) (throttle : UInt16) (channel : Channel)
    (motor : Nat) : (link.staged target throttle channel).facing motor = link.facing motor :=
  map_motor?_staged _ (fun _ _ => rfl) link target throttle channel motor

theorem facing_fire (link : Link) (motor : Nat) : link.fire.1.facing motor = link.facing motor :=
  map_motor?_fire _ (fun _ _ => rfl) link motor

/-- Every operation keeps a link in agreement with the calls. -/
theorem Mirrors.effect {op : Op} (mirrors : Mirrors room link trace) (sound : link.wiring.Sound)
    (room_eq : link.encoding.captureLength = room) (effect : link.Effect op next made) :
    Mirrors room next (trace ++ made) := by
  cases effect with
  | beginFrame => exact mirrors.beginFrame
  | writeAbsent throttle absent => simpa using mirrors
  | write throttle found =>
      refine mirrors.still (facing_staged link _ throttle _) rfl ?_
      split <;> simp [Call.isStill]
  | endHeld held => exact mirrors.still (fun _ => rfl) rfl (by simp)
  | endReleased released =>
      refine mirrors.still (facing_fire { link with commands := _ }) rfl ?_
      intro call callMem
      rcases mem_calls_fire.mp callMem with ⟨entry, _, starts⟩
      rw [eq_of_startCall? starts]
      split <;> rfl
  | transferDone motor capture => exact mirrors.transferDone sound room_eq motor capture
  | send target command => exact mirrors.still (fun _ => rfl) rfl (by simp)

theorem Mirrors.run (mirrors : Mirrors room link trace) (sound : link.Sound)
    (room_eq : link.encoding.captureLength = room) (run : link.run ops = .ok (last, calls)) :
    Mirrors room last (trace ++ calls) := by
  refine run_induction (motive := fun _ link calls => Mirrors room link (trace ++ calls)) sound
    (by simpa using mirrors) ?_ run
  intro ops mid calls op next made _ midSound wiring mirrors effect
  rw [← List.append_assoc]
  exact mirrors.effect midSound.wiring
    ((congrArg (·.encoding.captureLength) wiring).trans room_eq) effect

end Mirroring

section Uniform

/-- With bursts, the motors of one timer all face the same way. -/
def Uniform (link : Link) : Prop :=
  link.burst = true → ∀ {motor other channel otherChannel direction otherDirection},
    link.facing motor = some (channel, direction) →
      link.facing other = some (otherChannel, otherDirection) →
        channel.timer = otherChannel.timer → direction = otherDirection

theorem Uniform.of_facing (uniform : link.Uniform) (burst : next.burst = link.burst)
    (facing : ∀ motor, next.facing motor = link.facing motor) : next.Uniform := by
  intro burstMode motor other channel otherChannel direction otherDirection faces otherFaces
  rw [burst] at burstMode
  rw [facing] at faces otherFaces
  exact uniform burstMode faces otherFaces

theorem Uniform.beginFrame (uniform : link.Uniform) : link.beginFrame.1.Uniform := by
  rcases Bool.eq_false_or_eq_true link.telemetry with speaking | silent
  · intro _ motor other channel otherChannel direction otherDirection faces otherFaces _
    rw [facing_beginFrame speaking] at faces otherFaces
    rcases Option.map_eq_some_iff.mp faces with ⟨state, _, same⟩
    rcases Option.map_eq_some_iff.mp otherFaces with ⟨otherState, _, otherSame⟩
    exact (Prod.mk.inj same).2.symm.trans (Prod.mk.inj otherSame).2
  · rwa [beginFrame_of_silent silent]

/-- With bursts, a completed output turns the motors of one timer together. -/
theorem Uniform.flipWhere (uniform : link.Uniform) (target : Nat) (state : MotorState) :
    (link.flipWhere (link.sharesStop target state)).1.Uniform := by
  intro burst motor other channel otherChannel direction otherDirection faces otherFaces sameTimer
  replace burst : link.burst = true := burst
  rw [facing_flipWhere] at faces otherFaces
  rcases Option.map_eq_some_iff.mp faces with ⟨before, found, same⟩
  rcases Option.map_eq_some_iff.mp otherFaces with ⟨otherBefore, otherFound, otherSame⟩
  obtain ⟨rfl, rfl⟩ := Prod.mk.inj same
  obtain ⟨rfl, rfl⟩ := Prod.mk.inj otherSame
  have sameDirection : before.direction = otherBefore.direction :=
    uniform burst (facing_of_motor? found) (facing_of_motor? otherFound) sameTimer
  simp only [sharesStop, burst, if_true, sameTimer, sameDirection]

theorem Uniform.effect {op : Op} (uniform : link.Uniform) (effect : link.Effect op next made) :
    next.Uniform := by
  cases effect with
  | beginFrame => exact uniform.beginFrame
  | writeAbsent throttle absent => exact uniform
  | write throttle found => exact uniform.of_facing rfl (facing_staged link _ throttle _)
  | endHeld held => exact uniform.of_facing rfl fun _ => rfl
  | endReleased released =>
      exact uniform.of_facing rfl (facing_fire { link with commands := _ })
  | transferDone motor capture =>
      cases found : link.motor? motor with
      | none => rwa [transferDone_of_absent found]
      | some state =>
          cases direction : state.direction with
          | input =>
              rw [transferDone_of_input found direction]
              exact uniform.of_facing (by rw [received_fst]) (facing_received found capture)
          | output =>
              rw [transferDone_of_output found direction]
              rcases Bool.eq_false_or_eq_true link.telemetry with speaking | silent
              · rw [sent_of_speaking speaking]
                exact uniform.flipWhere motor state
              · rwa [sent_of_silent silent]
  | send target command => exact uniform.of_facing rfl fun _ => rfl

theorem Uniform.run (uniform : link.Uniform) (sound : link.Sound)
    (run : link.run ops = .ok (last, calls)) : last.Uniform := by
  refine run_induction (motive := fun _ link _ => link.Uniform) sound uniform ?_ run
  intro ops mid calls op next made _ _ _ uniform effect
  exact uniform.effect effect

/-- With bursts, a completed output turns every motor on its timer, none of which listened yet. -/
theorem Uniform.listen_mem (uniform : link.Uniform) (burst : link.burst = true)
    (speaking : link.telemetry = true) {target : Nat} {targetState : MotorState}
    (targetFound : link.motor? target = some targetState)
    (driving : targetState.direction = .output) (found : link.motor? motor = some state)
    (onTimer : state.channel.timer = targetState.channel.timer) (capture : Capture) :
    state.direction = .output ∧
      .listen state.channel ∈ (link.transferDone target capture).2 := by
  have sameDirection : state.direction = targetState.direction :=
    uniform burst (facing_of_motor? found) (facing_of_motor? targetFound) onTimer
  have alsoDriving : state.direction = .output := sameDirection.trans driving
  have flips : state ∈ link.turned (link.sharesStop target targetState) :=
    mem_turned.mpr ⟨motor, found, by simp [sharesStop, burst, onTimer], alsoDriving⟩
  refine ⟨alsoDriving, ?_⟩
  rw [transferDone_of_output targetFound driving, sent_of_speaking speaking, calls_flipWhere]
  apply List.mem_append_left
  apply List.mem_cons_of_mem
  exact mem_flipsOf.mpr ⟨state.channel, List.mem_map_of_mem flips, Or.inl rfl⟩

end Uniform

section Connecting

variable {assignment : Assignment} {channel : Channel}

/-- Every motor with a channel was driven, no channel was turned to input or armed, and nothing was
sent. -/
structure Assignment.Driven (assignment : Assignment) : Prop where
  quiet : ∀ call ∈ assignment.calls,
    call.isListen = false ∧ call.isArm = false ∧ call.sends = false
  driven : ∀ {motor : Nat} {state : MotorState},
    assignment.motors[motor]?.join = some state → .drive state.channel ∈ assignment.calls

namespace Assignment

theorem driven_call (driven : assignment.Driven) {call : Call}
    (quiet : call.isListen = false ∧ call.isArm = false ∧ call.sends = false) :
    Driven { assignment with calls := assignment.calls ++ [call] } := by
  refine ⟨List.forall_mem_append.mpr ⟨driven.quiet, by simpa using quiet⟩, ?_⟩
  intro motor state found
  exact List.mem_append_left _ (driven.driven found)

theorem driven_skip (driven : assignment.Driven) : assignment.skip.Driven := by
  refine ⟨driven.quiet, ?_⟩
  intro motor state found
  exact driven.driven (join_getElem?_skip.mp found)

theorem driven_introduce (driven : assignment.Driven) (protocol : Protocol) (timer : Timer) :
    (assignment.introduce protocol timer).Driven := by
  unfold introduce
  split
  · exact driven
  · have called : Driven
        { assignment with calls := assignment.calls ++ [.setUpTimer timer protocol] } :=
      driven_call driven ⟨rfl, rfl, rfl⟩
    exact ⟨called.quiet, called.driven⟩

theorem driven_attach (driven : assignment.Driven) (channel : Channel) :
    (assignment.attach channel).Driven := by
  by_cases room : assignment.occupancy channel.timer < channelsPerTimer
  · refine ⟨?_, ?_⟩
    · simp only [attach, room, if_true]
      exact List.forall_mem_append.mpr ⟨driven.quiet, by simp [Call.isListen, Call.isArm, Call.sends]⟩
    · intro motor state found
      simp only [attach, room, if_true]
      rcases (join_getElem?_attach room).mp found with before | ⟨_, rfl⟩
      · exact List.mem_append_left _ (driven.driven before)
      · exact List.mem_append_right _ (by simp [MotorState.onChannel])
  · rw [attach, if_neg room]
    exact driven_skip driven

theorem driven_claim (driven : assignment.Driven) (settings : MotorSettings) (motor : Nat)
    (answer : Except ClaimError Channel) : (assignment.claim settings motor answer).Driven := by
  have claimed : Driven
      { assignment with calls := assignment.calls ++ [.claim motor settings.burst] } :=
    driven_call driven ⟨rfl, rfl, rfl⟩
  unfold claim
  split
  · exact driven_skip claimed
  · exact driven_attach (driven_introduce claimed _ _) _

end Assignment

theorem driven_claimAll (settings : MotorSettings) (answers : Nat → Except ClaimError Channel) :
    (claimAll settings answers).Driven := by
  refine Assignment.claimAll_induction (motive := fun _ assignment => assignment.Driven) ?_ ?_
  · exact ⟨by simp, by simp⟩
  · intro count assignment driven
    exact Assignment.driven_claim driven settings count _

theorem mirrors_of_connect {settings : MotorSettings} {timing : Timing}
    {answers : Nat → Except ClaimError Channel} {init : List Call} (fits : timing.Fits)
    (connected : connect settings timing answers = .ok (link, init)) (room : Nat) :
    Mirrors room link init ∧ link.Uniform := by
  have initial := (initial_of_connect connected).1
  rcases connect_of_fits fits settings answers with ⟨micros, same⟩
  cases connected.symm.trans same
  have driven := driven_claimAll settings answers
  have outputs {motor : Nat} {state : MotorState}
      (found : (claimAll settings answers).motors[motor]?.join = some state) :
      state.direction = .output := by
    rw [(initial.answered found).2.2]
    rfl
  have noListen : ∀ call ∈ (claimAll settings answers).calls, call.isListen = false := by
    intro call callMem
    exact (driven.quiet call callMem).1
  refine ⟨⟨?_, armsAtOnce_of_no_listen noListen, ?_, ?_⟩, ?_⟩
  · intro motor channel direction faces
    rcases exists_motor?_of_facing faces with ⟨state, found, rfl, rfl⟩
    rw [outputs found]
    exact lastTurn_of_no_listen (driven.driven found) noListen
  · rw [List.countP_eq_zero.mpr (by simpa using noListen)]
    rfl
  · rw [List.countP_eq_zero.mpr (by simpa using fun call callMem => (driven.quiet call callMem).2.1)]
    rfl
  · intro _ motor other channel otherChannel direction otherDirection faces otherFaces _
    rcases exists_motor?_of_facing faces with ⟨state, found, _, rfl⟩
    rcases exists_motor?_of_facing otherFaces with ⟨otherState, otherFound, _, rfl⟩
    rw [outputs found, outputs otherFound]

end Connecting

/-- The direction of a motor is the last turn of its channel. Only channels at output are turned to
input, each is armed for a whole reply by the very next call, and every such turn is counted. With
telemetry the beginning of a frame turns all motors to output and enables every channel it drives;
with bursts a completed output turns all motors of its timer, which face the same way at any time. A
completed transfer takes back its completion flag last and once. -/
theorem direction_mirrors_calls {settings : MotorSettings} {timing : Timing}
    {answers : Nat → Except ClaimError Channel} (distinct : DistinctAnswers settings answers)
    (fits : timing.Fits) :
    ∃ link init, connect settings timing answers = .ok (link, init) ∧
      ∀ ops : List Op, ∃ last calls, link.run ops = .ok (last, calls) ∧
        (∀ motor channel, link.wiring.channel? motor = some channel →
          ∃ direction, last.direction motor = some direction ∧
            lastTurn channel (init ++ calls) = some direction) ∧
        ArmsAtOnce settings.protocol.encoding.captureLength [] (init ++ calls) ∧
        last.counters.flips = UInt32.ofNat ((init ++ calls).countP Call.isListen) ∧
        last.counters.flips = UInt32.ofNat ((init ++ calls).countP Call.isArm) ∧
        (settings.telemetry = true →
          (∀ motor channel, link.wiring.channel? motor = some channel →
            last.beginFrame.1.direction motor = some .output) ∧
          ∀ before channel after, last.beginFrame.2 = before ++ .drive channel :: after →
            .enable channel ∈ after) ∧
        (settings.burst = true → ∀ motor other state otherState,
          last.motor? motor = some state → last.motor? other = some otherState →
            otherState.channel.timer = state.channel.timer →
              otherState.direction = state.direction ∧
              (settings.telemetry = true → state.direction = .output → ∀ capture,
                .listen otherState.channel ∈ (last.transferDone motor capture).2)) ∧
        ∀ motor capture, ∃ before,
          (last.transferDone motor capture).2 = before ++ [.acknowledge motor] ∧
            ∀ other, .acknowledge other ∉ before := by
  rcases exists_connect distinct fits with ⟨link, init, connected, fresh⟩
  refine ⟨link, init, connected, ?_⟩
  intro ops
  rcases exists_run fresh.sound ops with ⟨last, calls, ran, sound, wiring⟩
  have configured := configured_of_wiring fresh.toConfigured wiring
  rcases mirrors_of_connect fits connected settings.protocol.encoding.captureLength with
    ⟨mirrorsInit, uniformInit⟩
  have mirrors := mirrorsInit.run fresh.sound
    (congrArg Encoding.captureLength fresh.encoding_eq) ran
  have uniform := uniformInit.run fresh.sound ran
  refine ⟨last, calls, ran, ?_, mirrors.armed, mirrors.listens, mirrors.arms, ?_, ?_, ?_⟩
  · intro motor channel wired
    rw [← wiring] at wired
    rcases exists_motor?_of_channel? wired with ⟨state, found, rfl⟩
    exact ⟨state.direction, by simp [direction, found],
      mirrors.turned (facing_of_motor? found)⟩
  · intro speaking
    refine ⟨?_, fun _ _ _ => enable_mem_of_drive⟩
    intro motor channel wired
    rw [← wiring] at wired
    rcases exists_motor?_of_channel? wired with ⟨state, found, rfl⟩
    rw [direction, motor?_beginFrame (configured.telemetry_eq.trans speaking), found]
    rfl
  · intro bursts motor other state otherState found otherFound onTimer
    have burst := configured.burst_eq.trans bursts
    refine ⟨uniform burst (facing_of_motor? otherFound) (facing_of_motor? found) onTimer, ?_⟩
    intro speaking driving capture
    exact (uniform.listen_mem burst (configured.telemetry_eq.trans speaking) found driving
      otherFound onTimer capture).2
  · intro motor capture
    exact exists_transferDone_snd last motor capture

/-- With bursts, the first completed output turns the motors of its timer, and the second one is
taken for a capture. -/
theorem direction_mirrors_calls_of_burst :
    ∃ link init last calls,
      connect { burst := true } {} (Bench.inOrder [(1, .noTimer)]).answer = .ok (link, init) ∧
      link.run (frameOps 4 (fun _ => 100) ++ [.transferDone 3 .nothing, .transferDone 0 .nothing,
        .transferDone 7 .nothing]) = .ok (last, calls) ∧
      lastTurn ⟨⟨0⟩, 2⟩ (init ++ calls) = some .input ∧
      ArmsAtOnce Protocol.dshot600.encoding.captureLength [] (init ++ calls) ∧
      last.counters.flips = 3 ∧ (init ++ calls).countP Call.isListen = 3 ∧
      last.beginFrame.1.direction 2 = some .output := by
  have fits : Timing.Fits {} := by decide
  rcases direction_mirrors_calls
    (Bench.distinctAnswers_inOrder [(1, .noTimer)] { burst := true }) fits with
    ⟨link, init, connected, runs⟩
  rcases runs (frameOps 4 (fun _ => 100) ++ [.transferDone 3 .nothing, .transferDone 0 .nothing,
    .transferDone 7 .nothing]) with
    ⟨last, calls, ran, turned, armed, listens, _, speaking, _, _⟩
  have wired : link.wiring.channel? 2 = some ⟨⟨0⟩, 2⟩ := by
    cases connected
    rfl
  rcases turned 2 ⟨⟨0⟩, 2⟩ wired with ⟨direction, faces, lastIs⟩
  refine ⟨link, init, last, calls, connected, ran, ?_, armed, ?_, ?_,
    (speaking rfl).1 2 _ wired⟩
  · rw [lastIs, ← faces]
    cases connected
    cases ran
    rfl
  · cases connected
    cases ran
    rfl
  · cases connected
    cases ran
    rfl

end Link

end Rotor

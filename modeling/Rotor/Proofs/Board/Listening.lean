import Rotor.Proofs.Board.Registers
import Rotor.Proofs.Link.Provenance

/-!
# What the board does for a motor that listens

A motor listens from the completion of its frame until its capture is complete or the next frame
begins. This file follows the registers of the board through the frames of a link and proves what
they hold for such a motor: its channel is set to capture both edges and its stream is armed with
the length of a reply, but the channel itself stays disabled. Turning a channel to input takes its
enable bit away, and nothing gives it back before the next frame.
-/

namespace Rotor

namespace Board

open Link (Op Moment FrameOrder Effect)

variable {link next : Link} {registers : Registers} {board : Board} {calls : List Call}
  {moment after : Moment} {motor : Nat} {state : MotorState}

section Flips

theorem inlet_flipCalls (registers : Registers) (board : Board)
    (drives : state.direction = .output) (encoding : Encoding) (index : Nat) :
    (registers.afterCalls board (state.flipCalls encoding)).inlet index =
      if state.channel.index.toNat = index then .armed index encoding.captureLength false
      else registers.inlet index := by
  have calls : state.flipCalls encoding =
      [.listen state.channel, .arm state.channel encoding.captureLength] := by
    simp [MotorState.flipCalls, drives]
  have whole : min encoding.captureLength Mailbox.capacity = encoding.captureLength := by
    cases encoding <;> rfl
  rw [calls, Registers.afterCalls_cons, Registers.afterCalls_cons, Registers.afterCalls_nil,
    Registers.inlet_arm, Registers.inlet_listen, whole]
  split <;> rfl

/-- A channel is armed once it was turned to input, and stays so while others are. -/
theorem inlet_flips {encoding : Encoding} {states : List MotorState} {index : Nat}
    (drive : ∀ state ∈ states, state.direction = .output)
    (turned : (∃ state ∈ states, state.channel.index.toNat = index) ∨
      registers.inlet index = .armed index encoding.captureLength false) :
    (registers.afterCalls board (states.flatMap (·.flipCalls encoding))).inlet index =
      .armed index encoding.captureLength false := by
  induction states generalizing registers board with
  | nil => simpa using turned
  | cons state rest ih =>
      rw [List.forall_mem_cons] at drive
      rw [List.flatMap_cons, Registers.afterCalls_append]
      apply ih drive.2
      have head := inlet_flipCalls registers board drive.1 encoding index
      by_cases same : state.channel.index.toNat = index
      · right
        rw [head, if_pos same]
      · rcases turned with ⟨other, otherMem, onIndex⟩ | armed
        · rcases List.mem_cons.mp otherMem with rfl | inRest
          · exact absurd onIndex same
          · exact Or.inl ⟨other, inRest, onIndex⟩
        · right
          rw [head, if_neg same, armed]

/-- The calls that turn the chosen motors to input. -/
theorem exists_flips (link : Link) (chosen : Nat → MotorState → Bool) :
    ∃ states : List MotorState,
      (link.flipWhere chosen).2 = states.flatMap (·.flipCalls link.encoding) ∧
      ∀ state, state ∈ states ↔
        ∃ motor, link.motor? motor = some state ∧ chosen motor state = true ∧
          state.direction = .output := by
  refine ⟨_, rfl, ?_⟩
  intro state
  simp only [List.mem_filterMap, Prod.exists, List.mem_zipIdx_iff_getElem?,
    Option.filter_eq_some_iff, Bool.and_eq_true, beq_iff_eq]
  constructor
  · rintro ⟨entry, motor, atMotor, rfl, isChosen, drives⟩
    exact ⟨motor, by simp [Link.motor?, atMotor], isChosen, drives⟩
  · rintro ⟨motor, found, isChosen, drives⟩
    exact ⟨some state, motor, Option.join_eq_some_iff.mp found, rfl, isChosen, drives⟩

end Flips

section Readiness

/-- Every motor of the link is on the channel of the timer that has its number. -/
def Serves (link : Link) : Prop :=
  ∀ motor state, link.motor? motor = some state →
    state.channel.timer = timer ∧ state.channel.index.toNat = motor

/-- The registers are ready for every motor that listens. With telemetry, no motor listens within a
frame, and with bursts either all motors listen or none. -/
structure Ready (moment : Moment) (link : Link) (registers : Registers) : Prop where
  driving : moment = .within → ∀ motor, link.direction motor ≠ some .input
  together : link.burst = true → ∀ motor other, link.direction motor = some .output →
    link.direction other ≠ some .input
  armed : ∀ motor state, link.motor? motor = some state → state.direction = .input →
    state.mailbox.phase = .empty →
      registers.inlet motor = .armed motor link.encoding.captureLength false

theorem ready_of_driving (drives : ∀ motor, link.direction motor ≠ some .input) :
    Ready moment link registers := by
  refine ⟨fun _ => drives, fun _ _ other _ => drives other, ?_⟩
  intro motor state found listens
  exact absurd (by simp [Link.direction, found, listens]) (drives motor)

/-- Where every motor keeps its direction, an operation within a frame leaves all of them at
output. -/
theorem ready_of_same_directions {before : Registers} (ready : Ready .within link before)
    (same : ∀ motor, next.direction motor = link.direction motor) :
    Ready moment next registers := by
  apply ready_of_driving
  intro motor
  rw [same motor]
  exact ready.driving rfl motor

theorem not_input_beginFrame (speaking : link.telemetry = true) (motor : Nat) :
    link.beginFrame.1.direction motor ≠ some .input := by
  unfold Link.direction
  rw [Link.motor?_beginFrame speaking, Option.map_map]
  cases link.motor? motor <;> simp [MotorState.begin]

end Readiness

section Completion

theorem inlet_acknowledged (registers : Registers) (board : Board) (calls : List Call)
    (target index : Nat) :
    (registers.afterCalls board (calls ++ [.acknowledge target])).inlet index =
      (registers.afterCalls board calls).inlet index := by
  rw [Registers.afterCalls_append]
  exact Registers.inlet_acknowledge target index

/-- The completion of a capture concerns no other channel. -/
theorem inlet_received {index : Nat} (differ : state.channel.index.toNat ≠ index) (target : Nat)
    (capture : Capture) :
    (registers.afterCalls board (link.received target state capture).2).inlet index =
      registers.inlet index := by
  by_cases empty : state.mailbox.phase = .empty
  · rw [Link.received_of_empty empty, Registers.afterCalls_cons, Registers.afterCalls_cons,
      Registers.afterCalls_nil, Registers.inlet_fetch, Registers.inlet_halt, if_neg differ]
  · rw [Link.received_of_taken empty, Registers.afterCalls_cons, Registers.afterCalls_nil,
      Registers.inlet_halt, if_neg differ]

/-- After the completion of its capture a motor no longer waits for one. -/
theorem ready_transferDone_of_input (serves : Serves link)
    (ready : Ready .between link registers) {target : Nat}
    (found : link.motor? target = some state) (listens : state.direction = .input)
    (capture : Capture) (board : Board) :
    Ready .between (link.transferDone target capture).1
      (registers.afterCalls board (link.transferDone target capture).2) := by
  have sameDirection := Link.direction_received found capture
  have encoding : (link.received target state capture).1.encoding = link.encoding := by
    rw [Link.received_fst]
  have burst : (link.received target state capture).1.burst = link.burst := by
    rw [Link.received_fst]
  rw [Link.transferDone_of_input found listens]
  refine ⟨by simp, ?_, ?_⟩
  · intro bursts motor other drives
    rw [sameDirection] at drives ⊢
    exact ready.together (burst ▸ bursts) motor other drives
  · intro motor after afterFound afterListens empty
    rw [inlet_acknowledged, encoding]
    rw [Link.motor?_received found] at afterFound
    split at afterFound
    · cases afterFound
      exact absurd empty (Mailbox.phase_deposit_ne_empty _ _)
    · next differ =>
      rw [inlet_received (by rwa [(serves target state found).2])]
      exact ready.armed motor after afterFound afterListens empty

/-- After the completion of its frame a motor is turned to input, with bursts together with all
others, and the registers are ready for it. -/
theorem ready_transferDone_of_output (serves : Serves link) (speaking : link.telemetry = true)
    (ready : Ready .between link registers) {target : Nat}
    (found : link.motor? target = some state) (drives : state.direction = .output)
    (capture : Capture) (board : Board) :
    Ready .between (link.transferDone target capture).1
      (registers.afterCalls board (link.transferDone target capture).2) := by
  have targetDrives : link.direction target = some .output := by
    simp [Link.direction, found, drives]
  rw [Link.transferDone_of_output found drives, Link.sent_of_speaking speaking]
  refine ⟨by simp, ?_, ?_⟩
  · intro bursts motor other atOutput
    have bursting : link.burst = true := bursts
    unfold Link.direction at atOutput
    rw [Link.motor?_flipWhere] at atOutput
    cases motorFound : link.motor? motor with
    | none => simp [motorFound] at atOutput
    | some before =>
        have shares : link.sharesStop target state motor before = true := by
          simp [Link.sharesStop, bursting, (serves motor before motorFound).1,
            (serves target state found).1]
        cases direction : before.direction <;>
          simp [motorFound, shares, direction, MotorState.flip] at atOutput
  · intro motor after afterFound listens empty
    rcases exists_flips link (link.sharesStop target state) with ⟨states, flips, memStates⟩
    rw [inlet_acknowledged, flips, Registers.afterCalls_cons]
    apply inlet_flips
    · intro turned turnedMem
      rcases (memStates turned).mp turnedMem with ⟨_, _, _, atOutput⟩
      exact atOutput
    · rw [Link.motor?_flipWhere] at afterFound
      rcases Option.map_eq_some_iff.mp afterFound with ⟨before, foundBefore, rfl⟩
      by_cases turns : link.sharesStop target state motor before = true ∧
          before.direction = .output
      · left
        exact ⟨before, (memStates before).mpr ⟨motor, foundBefore, turns.1, turns.2⟩,
          (serves motor before foundBefore).2⟩
      · right
        have unturned : (link.sharesStop target state motor before &&
            before.direction == .output) = false := by
          simpa using turns
        rw [unturned, if_neg Bool.false_ne_true] at listens empty
        have heard : link.direction motor = some .input := by
          simp [Link.direction, foundBefore, listens]
        have single : link.burst = false := by
          by_contra bursts
          exact ready.together (by simpa using bursts) target motor targetDrives heard
        have differ : state.channel.index.toNat ≠ motor := by
          rw [(serves target state found).2]
          rintro rfl
          rw [targetDrives] at heard
          cases heard
        have stop : link.stopCall state.channel = .halt state.channel := by
          simp [Link.stopCall, single]
        rw [stop, Registers.inlet_halt, if_neg differ]
        exact ready.armed motor before foundBefore listens empty

end Completion

/-- Every operation that comes in the order of frames keeps the registers ready. -/
theorem ready_effect {op : Op} (serves : Serves link) (speaking : link.telemetry = true)
    (ready : Ready moment link registers) (effect : link.Effect op next calls)
    (order : moment.next op = some after) (board : Board) :
    Ready after next (registers.afterCalls board calls) := by
  cases effect with
  | beginFrame => exact ready_of_driving (not_input_beginFrame speaking)
  | writeAbsent throttle absent =>
      obtain ⟨rfl, rfl⟩ := Link.Moment.of_next order
      exact ready_of_same_directions ready (fun _ => rfl)
  | write throttle targetFound =>
      obtain ⟨rfl, rfl⟩ := Link.Moment.of_next order
      exact ready_of_same_directions ready (Link.direction_staged link _ throttle _)
  | endHeld held =>
      obtain ⟨rfl, rfl⟩ := Link.Moment.of_next order
      exact ready_of_same_directions ready (fun _ => rfl)
  | endReleased released =>
      obtain ⟨rfl, rfl⟩ := Link.Moment.of_next order
      exact ready_of_same_directions ready (fun motor => Link.direction_fire _ motor)
  | transferDone target capture =>
      obtain ⟨rfl, rfl⟩ := Link.Moment.of_next order
      cases found : link.motor? target with
      | none =>
          rw [Link.transferDone_of_absent found]
          refine ⟨ready.driving, ready.together, ?_⟩
          intro motor state motorFound listens empty
          rw [← List.nil_append [Call.acknowledge target], inlet_acknowledged]
          exact ready.armed motor state motorFound listens empty
      | some state =>
          cases direction : state.direction with
          | input =>
              exact ready_transferDone_of_input serves ready found direction capture board
          | output =>
              exact ready_transferDone_of_output serves speaking ready found direction capture board
  | send target command =>
      obtain rfl : moment = after := Link.Moment.of_next order
      exact ⟨ready.driving, ready.together, ready.armed⟩

section Runs

theorem serves_of_wiring (serves : Serves link) (wiring : next.wiring = link.wiring) :
    Serves next := by
  intro motor state found
  have wired := Link.channel?_wiring found
  rw [wiring] at wired
  rcases Link.exists_motor?_of_channel? wired with ⟨before, foundBefore, sameChannel⟩
  rw [← sameChannel]
  exact serves motor before foundBefore

/-- A run in the order of frames keeps the registers ready. -/
theorem ready_run {ops : List Op} (serves : Serves link) (speaking : link.telemetry = true)
    (ready : Ready .between link registers) (run : link.run ops = .ok (next, calls))
    (order : ops.foldlM Moment.next .between = some after) (board : Board) :
    Ready after next (registers.afterCalls board calls) := by
  refine Link.order_induction (motive := fun moment last calls =>
    Ready moment last (registers.afterCalls board calls)) ready ?_ run order
  intro moment after mid calls op next made wiring readyBefore effect falls
  rw [Registers.afterCalls_append]
  exact ready_effect (serves_of_wiring serves wiring)
    ((congrArg Wiring.telemetry wiring).trans speaking) readyBefore effect falls _

end Runs

section Connected

variable {clock busyReads : Nat} {settings : MotorSettings}

theorem eq_of_answer {channel : Channel}
    (answer : (new clock busyReads).answer motor = .ok channel) :
    motor < motorCount ∧ channel = { timer, index := UInt8.ofNat motor } := by
  unfold Board.answer at answer
  split at answer
  · simp at answer
  · next inRange =>
    split at answer
    · simp at answer
    · exact ⟨Nat.lt_of_not_le inRange, (Except.ok.inj answer).symm⟩

theorem index_of_answer {channel : Channel}
    (answer : (new clock busyReads).answer motor = .ok channel) :
    channel.index.toNat = motor := by
  rcases eq_of_answer answer with ⟨inRange, rfl⟩
  simp only [motorCount] at inRange
  simp only [UInt8.toNat_ofNat']
  omega

theorem distinctAnswers_new (clock busyReads : Nat) (settings : MotorSettings) :
    DistinctAnswers settings (new clock busyReads).answer := by
  refine ⟨?_, ?_⟩
  · intro motor channel _ answer
    rw [index_of_answer answer]
    exact (eq_of_answer answer).1
  · intro motor other channel _ _ answer otherAnswer
    exact (index_of_answer answer).symm.trans (index_of_answer otherAnswer)

theorem serves_of_fresh (fresh : link.Fresh settings (new clock busyReads).answer) :
    Serves link := by
  intro motor state found
  rcases fresh.fresh_motor found with ⟨channel, answer, rfl⟩
  refine ⟨?_, index_of_answer answer⟩
  rw [(eq_of_answer answer).2]
  rfl

theorem ready_of_fresh (fresh : link.Fresh settings (new clock busyReads).answer)
    (registers : Registers) : Ready .between link registers := by
  apply ready_of_driving
  intro motor
  cases found : link.motor? motor with
  | none => simp [Link.direction, found]
  | some state =>
      rcases fresh.fresh_motor found with ⟨channel, _, rfl⟩
      simp [Link.direction, found, MotorState.onChannel]

end Connected

/-- As long as a motor listens and its capture has not completed, its channel captures its own input
on both edges, its request is on, and its stream runs from the compare register of the channel for
the length of a reply. Only the channel itself is disabled, so that nothing is captured. -/
theorem inlet_of_listening {settings : MotorSettings} {timing : Timing}
    (speaking : settings.telemetry = true) (fits : timing.Fits) (clock busyReads : Nat) :
    ∃ link init, Link.connect settings timing (new clock busyReads).answer = .ok (link, init) ∧
      ∀ earlier recent : List Op, FrameOrder (earlier ++ recent) →
        (earlier = [] ∨ earlier.getLast? = some .beginFrame) →
        (∀ op ∈ recent, op ≠ .beginFrame) →
          ∃ start before last calls,
            link.run earlier = .ok (start, before) ∧ start.run recent = .ok (last, calls) ∧
            ∀ motor, last.direction motor = some .input → start.deliveries motor recent = [] →
              (Registers.zero.afterCalls (new clock busyReads)
                (init ++ before ++ calls)).inlet motor =
                  .armed motor settings.protocol.encoding.captureLength false := by
  rcases Link.exists_connect (distinctAnswers_new clock busyReads settings) fits with
    ⟨link, init, connected, fresh⟩
  refine ⟨link, init, connected, ?_⟩
  intro earlier recent order boundary sameFrame
  rcases Link.exists_run fresh.sound earlier with ⟨start, before, ranEarlier, sound, startWiring⟩
  rcases Link.exists_run sound recent with ⟨last, calls, ranRecent, _, lastWiring⟩
  refine ⟨start, before, last, calls, ranEarlier, ranRecent, ?_⟩
  intro motor listens unheard
  have startConfigured := Link.configured_of_wiring fresh.toConfigured startWiring
  have lastConfigured := Link.configured_of_wiring startConfigured lastWiring
  have linkTelemetry := fresh.telemetry_eq.trans speaking
  rcases Option.isSome_iff_exists.mp order with ⟨after, ordered⟩
  have ran : link.run (earlier ++ recent) = .ok (last, before ++ calls) :=
    Link.run_append_eq_ok_iff.mpr ⟨start, before, calls, ranEarlier, ranRecent, rfl⟩
  have ready := ready_run (serves_of_fresh fresh) linkTelemetry
    (ready_of_fresh fresh (Registers.zero.afterCalls (new clock busyReads) init)) ran ordered
    ((new clock busyReads).performAll init).1
  rcases Option.map_eq_some_iff.mp listens with ⟨state, found, atInput⟩
  have empty := Link.phase_of_unheard fresh speaking boundary ranEarlier sameFrame ranRecent unheard
    found
  rw [List.append_assoc, Registers.afterCalls_append, ← lastConfigured.encoding_eq]
  exact ready.armed motor state found atInput empty

/-- One motor has sent its frame and listens, with its channel disabled. -/
theorem inlet_of_listening_after_first_frame :
    ∃ link init start before last calls,
      Link.connect { motorCount := 1 } {} (new 240000000 0).answer = .ok (link, init) ∧
      link.run [.beginFrame] = .ok (start, before) ∧
      start.run [.write 0 100, .endFrame, .transferDone 0 .nothing] = .ok (last, calls) ∧
      last.direction 0 = some .input ∧
      (Registers.zero.afterCalls (new 240000000 0) (init ++ before ++ calls)).inlet 0 =
        .armed 0 32 false := by
  have speaking : ({ motorCount := 1 } : MotorSettings).telemetry = true := rfl
  have fits : Timing.Fits {} := by decide
  rcases inlet_of_listening speaking fits 240000000 0 with ⟨link, init, connected, frames⟩
  rcases frames [.beginFrame] [.write 0 100, .endFrame, .transferDone 0 .nothing] (by decide)
    (by decide) (by decide) with ⟨start, before, last, calls, ranEarlier, ranRecent, listening⟩
  have listens : last.direction 0 = some .input := by
    cases connected
    cases ranEarlier
    cases ranRecent
    rfl
  have unheard : start.deliveries 0 [.write 0 100, .endFrame, .transferDone 0 .nothing] = [] := by
    cases connected
    cases ranEarlier
    rfl
  exact ⟨link, init, start, before, last, calls, connected, ranEarlier, ranRecent, listens,
    listening 0 listens unheard⟩

end Board

end Rotor

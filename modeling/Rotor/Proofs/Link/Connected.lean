import Rotor.Bench
import Rotor.Proofs.Link.Runs

/-!
# A link that has just been connected

Hardware that gives every motor a channel of its own makes a sound link. `Link.exists_connect` also
says what the link holds before its first operation: every motor is in the state it has on a fresh
channel, no timer has anything staged, and no command waits.
-/

namespace Rotor

/-- The number of motors that a link claims channels for. -/
def MotorSettings.claimCount (settings : MotorSettings) : Nat :=
  min settings.motorCount.toNat maxMotors

/-- Hardware that gives the motors channels of four to a timer, and never one channel to two. -/
structure DistinctAnswers (settings : MotorSettings)
    (answers : Nat → Except ClaimError Channel) : Prop where
  index_lt : ∀ {motor channel}, motor < settings.claimCount → answers motor = .ok channel →
    channel.index.toNat < channelsPerTimer
  distinct : ∀ {motor other channel}, motor < settings.claimCount → other < settings.claimCount →
    answers motor = .ok channel → answers other = .ok channel → motor = other

/-- The time of one turn of the control loop fits its word. -/
def Timing.Fits (timing : Timing) : Prop :=
  timing.gyroMicros.toNat * timing.samplesPerLoop.toNat < UInt32.size

instance (timing : Timing) : Decidable timing.Fits :=
  inferInstanceAs (Decidable (_ < _))

namespace Link

namespace Assignment

variable {answers : Nat → Except ClaimError Channel} {assignment : Assignment} {count : Nat}

/-- The timers in service. -/
def timersInService (assignment : Assignment) : List Timer :=
  assignment.timers.map TimerState.timer

theorem knows_iff {timer : Timer} :
    assignment.knows timer = true ↔ timer ∈ assignment.timersInService := by
  simp [knows, timersInService]

/-- The claims of the first `count` motors have been answered, and every motor with a channel is on
a timer in service. -/
structure Consistent (answers : Nat → Except ClaimError Channel) (count : Nat)
    (assignment : Assignment) : Prop where
  length_eq : assignment.motors.length = count
  fresh_motor : ∀ (motor : Nat) (state : MotorState),
    assignment.motors[motor]?.join = some state →
      ∃ channel, answers motor = .ok channel ∧ state = .onChannel channel
  fresh_timer : ∀ entry ∈ assignment.timers, entry = .ofTimer entry.timer
  known : ∀ (motor : Nat) (state : MotorState), assignment.motors[motor]?.join = some state →
    state.channel.timer ∈ assignment.timersInService
  nodup : assignment.timersInService.Nodup

/-- A motor that has a channel was given it by the answer to its claim. -/
theorem Consistent.answered (consistent : Consistent answers count assignment) {motor : Nat}
    {state : MotorState} (found : assignment.motors[motor]?.join = some state) :
    motor < count ∧ answers motor = .ok state.channel ∧ state = .onChannel state.channel := by
  rcases consistent.fresh_motor motor state found with ⟨channel, answer, rfl⟩
  refine ⟨?_, answer, rfl⟩
  by_contra beyond
  rw [← consistent.length_eq] at beyond
  simp [List.getElem?_eq_none (Nat.le_of_not_lt beyond)] at found

/-- A motor has a channel of the timer. -/
def Uses (assignment : Assignment) (timer : Timer) : Prop :=
  ∃ (motor : Nat) (state : MotorState),
    assignment.motors[motor]?.join = some state ∧ state.channel.timer = timer

theorem join_getElem?_concat {motors : List (Option MotorState)} {last : Option MotorState}
    {motor : Nat} {state : MotorState} :
    (motors ++ [last])[motor]?.join = some state ↔
      motors[motor]?.join = some state ∨ motor = motors.length ∧ last = some state := by
  rcases Nat.lt_trichotomy motor motors.length with before | rfl | after
  · simp [List.getElem?_append_left before, Nat.ne_of_lt before]
  · simp
  · have beyond : (motors ++ [last]).length ≤ motor := by
      rw [List.length_append]
      exact after
    simp [List.getElem?_eq_none (Nat.le_of_lt after), List.getElem?_eq_none beyond,
      Nat.ne_of_gt after]

section Skip

theorem join_getElem?_skip {motor : Nat} {state : MotorState} :
    assignment.skip.motors[motor]?.join = some state ↔
      assignment.motors[motor]?.join = some state := by
  simp [skip, join_getElem?_concat]

theorem consistent_skip (consistent : Consistent answers count assignment) :
    Consistent answers (count + 1) assignment.skip := by
  refine ⟨by simp [skip, consistent.length_eq], ?_, consistent.fresh_timer, ?_, consistent.nodup⟩
  · intro motor state found
    exact consistent.fresh_motor motor state (join_getElem?_skip.mp found)
  · intro motor state found
    exact consistent.known motor state (join_getElem?_skip.mp found)

theorem uses_skip {timer : Timer} (uses : assignment.Uses timer) : assignment.skip.Uses timer := by
  rcases uses with ⟨motor, state, found, onTimer⟩
  exact ⟨motor, state, join_getElem?_skip.mpr found, onTimer⟩

end Skip

section Attach

variable {channel : Channel}

theorem uses_of_occupancy {timer : Timer} (occupied : 0 < assignment.occupancy timer) :
    assignment.Uses timer := by
  rcases List.countP_pos_iff.mp occupied with ⟨entry, entryMem, onTimer⟩
  rcases (Option.any_eq_true _ _).mp onTimer with ⟨state, rfl, sameTimer⟩
  rcases List.getElem?_of_mem entryMem with ⟨motor, found⟩
  exact ⟨motor, state, by simp [found], by simpa using sameTimer⟩

theorem join_getElem?_attach (room : assignment.occupancy channel.timer < channelsPerTimer)
    {motor : Nat} {state : MotorState} :
    (assignment.attach channel).motors[motor]?.join = some state ↔
      assignment.motors[motor]?.join = some state ∨
        motor = assignment.motors.length ∧ MotorState.onChannel channel = state := by
  simp only [attach, room, if_true, join_getElem?_concat, Option.some.injEq]

theorem timers_attach : (assignment.attach channel).timers = assignment.timers := by
  unfold attach
  split <;> rfl

theorem consistent_attach (consistent : Consistent answers count assignment)
    (answer : answers count = .ok channel)
    (inService : channel.timer ∈ assignment.timersInService) :
    Consistent answers (count + 1) (assignment.attach channel) := by
  by_cases room : assignment.occupancy channel.timer < channelsPerTimer
  · refine ⟨by simp [attach, room, consistent.length_eq], ?_, ?_, ?_, ?_⟩
    · intro motor state found
      rcases (join_getElem?_attach room).mp found with before | ⟨rfl, rfl⟩
      · exact consistent.fresh_motor motor state before
      · exact ⟨channel, consistent.length_eq ▸ answer, rfl⟩
    · rw [timers_attach]
      exact consistent.fresh_timer
    · intro motor state found
      rw [timersInService, timers_attach]
      rcases (join_getElem?_attach room).mp found with before | ⟨rfl, rfl⟩
      · exact consistent.known motor state before
      · exact inService
    · rw [timersInService, timers_attach]
      exact consistent.nodup
  · rw [attach, if_neg room]
    exact consistent_skip consistent

theorem uses_attach {timer : Timer} (uses : assignment.Uses timer) :
    (assignment.attach channel).Uses timer := by
  by_cases room : assignment.occupancy channel.timer < channelsPerTimer
  · rcases uses with ⟨motor, state, found, onTimer⟩
    exact ⟨motor, state, (join_getElem?_attach room).mpr (.inl found), onTimer⟩
  · rw [attach, if_neg room]
    exact uses_skip uses

/-- The motor is attached, or others are on its timer already. -/
theorem uses_attach_self : (assignment.attach channel).Uses channel.timer := by
  by_cases room : assignment.occupancy channel.timer < channelsPerTimer
  · exact ⟨assignment.motors.length, _, (join_getElem?_attach room).mpr (.inr ⟨rfl, rfl⟩), rfl⟩
  · rw [attach, if_neg room]
    apply uses_skip
    apply uses_of_occupancy
    simp only [channelsPerTimer] at room
    omega

end Attach

section Claim

theorem consistent_introduce {timer : Timer} (consistent : Consistent answers count assignment)
    (protocol : Protocol) : Consistent answers count (assignment.introduce protocol timer) := by
  unfold introduce
  split
  · exact consistent
  · next unknown =>
    refine ⟨consistent.length_eq, consistent.fresh_motor, ?_, ?_, ?_⟩
    · intro entry entryMem
      rcases List.mem_append.mp entryMem with old | new
      · exact consistent.fresh_timer entry old
      · rw [List.mem_singleton.mp new]
        rfl
    · intro motor state found
      have known := consistent.known motor state found
      simp only [timersInService, List.map_append] at known ⊢
      exact List.mem_append_left _ known
    · have fresh : timer ∉ assignment.timersInService := knows_iff.not.mp unknown
      have nodup := consistent.nodup
      simp only [timersInService, List.map_append] at fresh nodup ⊢
      rw [List.nodup_append]
      refine ⟨nodup, by simp, ?_⟩
      intro old oldMem new newMem same
      obtain rfl : new = timer := by simpa [TimerState.ofTimer] using newMem
      exact fresh (same ▸ oldMem)

theorem mem_timersInService_introduce {timer other : Timer} {protocol : Protocol} :
    other ∈ (assignment.introduce protocol timer).timersInService ↔
      other ∈ assignment.timersInService ∨ other = timer := by
  unfold introduce
  split
  · next known =>
    have inService : timer ∈ assignment.timersInService := by
      simpa [knows, timersInService] using known
    constructor
    · exact Or.inl
    · rintro (old | rfl)
      · exact old
      · exact inService
  · simp [timersInService, TimerState.ofTimer]

theorem uses_introduce {timer other : Timer} {protocol : Protocol} :
    (assignment.introduce protocol timer).Uses other ↔ assignment.Uses other := by
  unfold introduce
  split <;> exact Iff.rfl

theorem consistent_claim (consistent : Consistent answers count assignment)
    (settings : MotorSettings) :
    Consistent answers (count + 1) (assignment.claim settings count (answers count)) := by
  have claimed : Consistent answers count
      { assignment with calls := assignment.calls ++ [Call.claim count settings.burst] } :=
    ⟨consistent.length_eq, consistent.fresh_motor, consistent.fresh_timer, consistent.known,
      consistent.nodup⟩
  unfold claim
  split
  · exact consistent_skip claimed
  · next channel answer =>
    exact consistent_attach (consistent_introduce claimed settings.protocol) answer
      (mem_timersInService_introduce.mpr (.inr rfl))

theorem uses_claim (settings : MotorSettings) (motor : Nat) (answer : Except ClaimError Channel)
    (used : ∀ timer ∈ assignment.timersInService, assignment.Uses timer) :
    ∀ timer ∈ (assignment.claim settings motor answer).timersInService,
      (assignment.claim settings motor answer).Uses timer := by
  intro timer timerMem
  cases answer with
  | error refusal => exact uses_skip (used timer timerMem)
  | ok channel =>
      simp only [claim, timersInService, timers_attach] at timerMem
      rcases mem_timersInService_introduce.mp timerMem with old | rfl
      · exact uses_attach (uses_introduce.mpr (used timer old))
      · exact uses_attach_self

/-- What holds of nothing assigned, and is kept by the claim of the next motor, holds once all motors
were claimed for. -/
theorem claimAll_induction {settings : MotorSettings} {motive : Nat → Assignment → Prop}
    (start : motive 0 { motors := [], timers := [], calls := [] })
    (keep : ∀ {count : Nat} {assignment : Assignment}, motive count assignment →
      motive (count + 1) (assignment.claim settings count (answers count))) :
    motive settings.claimCount (claimAll settings answers) := by
  unfold claimAll MotorSettings.claimCount
  generalize min settings.motorCount.toNat maxMotors = count
  induction count with
  | zero => exact start
  | succ count ih =>
      rw [List.range_succ, List.foldl_append]
      exact keep ih

theorem consistent_claimAll (settings : MotorSettings)
    (answers : Nat → Except ClaimError Channel) :
    Consistent answers settings.claimCount (claimAll settings answers) ∧
      ∀ timer ∈ (claimAll settings answers).timersInService,
        (claimAll settings answers).Uses timer := by
  refine claimAll_induction (motive := fun count assignment =>
    Consistent answers count assignment ∧
      ∀ timer ∈ assignment.timersInService, assignment.Uses timer) ?_ ?_
  · exact ⟨⟨by simp, by simp, by simp, by simp, by simp [timersInService]⟩,
      by simp [timersInService]⟩
  · rintro count assignment ⟨consistent, used⟩
    exact ⟨consistent_claim consistent settings, uses_claim settings count _ used⟩

end Claim

/-- Which channels the motors get does not depend on the mode. -/
theorem motors_claim_congr {left right : Assignment} (same : left.motors = right.motors)
    (settings other : MotorSettings) (motor : Nat) (answer : Except ClaimError Channel) :
    (left.claim settings motor answer).motors = (right.claim other motor answer).motors := by
  have introduced (assignment : Assignment) (protocol : Protocol) (timer : Timer) :
      (assignment.introduce protocol timer).motors = assignment.motors := by
    unfold introduce
    split <;> rfl
  cases answer with
  | error refusal => simp [claim, skip, same]
  | ok channel =>
      simp only [claim, attach, occupancy, introduced, same]
      split <;> simp [skip, introduced]

end Assignment

theorem motors_claimAll_congr {settings other : MotorSettings}
    (count : settings.claimCount = other.claimCount) (answers : Nat → Except ClaimError Channel) :
    (claimAll settings answers).motors = (claimAll other answers).motors := by
  unfold MotorSettings.claimCount at count
  unfold claimAll
  rw [count]
  generalize min other.motorCount.toNat maxMotors = count
  induction count with
  | zero => rfl
  | succ count ih =>
      simp only [List.range_succ, List.foldl_append, List.foldl_cons, List.foldl_nil]
      exact Assignment.motors_claim_congr ih settings other count (answers count)

/-- A link that works by the given settings. -/
structure Configured (settings : MotorSettings) (link : Link) : Prop where
  encoding_eq : link.encoding = settings.protocol.encoding
  telemetry_eq : link.telemetry = settings.telemetry
  burst_eq : link.burst = settings.burst
  motorCount_eq : link.motorCount = settings.claimCount

theorem configured_of_wiring {settings : MotorSettings} {link next : Link}
    (configured : link.Configured settings) (wiring : next.wiring = link.wiring) :
    next.Configured settings := by
  refine ⟨?_, ?_, ?_, ?_⟩
  · exact (congrArg Wiring.encoding wiring).trans configured.encoding_eq
  · exact (congrArg Wiring.telemetry wiring).trans configured.telemetry_eq
  · exact (congrArg Wiring.burst wiring).trans configured.burst_eq
  · exact (congrArg Wiring.motorCount wiring).trans configured.motorCount_eq

/-- What a link is before its first operation, whatever the hardware answered. -/
structure Initial (settings : MotorSettings) (answers : Nat → Except ClaimError Channel)
    (link : Link) : Prop extends Configured settings link where
  answered : ∀ {motor state}, link.motor? motor = some state →
    motor < settings.claimCount ∧ answers motor = .ok state.channel ∧
      state = .onChannel state.channel
  fresh_timer : ∀ entry ∈ link.timers, entry = .ofTimer entry.timer
  known : ∀ {motor channel}, link.wiring.channel? motor = some channel →
    channel.timer ∈ link.wiring.timers
  used : ∀ {timer}, timer ∈ link.wiring.timers →
    ∃ motor channel, link.wiring.channel? motor = some channel ∧ channel.timer = timer
  nodup : link.wiring.timers.Nodup
  commands : link.commands.Sound
  commands_empty : link.commands.entries = []

/-- What a link on distinct channels is before its first operation. -/
structure Fresh (settings : MotorSettings) (answers : Nat → Except ClaimError Channel)
    (link : Link) : Prop extends Configured settings link where
  sound : link.Sound
  fresh_motor : ∀ {motor state}, link.motor? motor = some state →
    ∃ channel, answers motor = .ok channel ∧ state = .onChannel channel
  fresh_timer : ∀ entry ∈ link.timers, entry = .ofTimer entry.timer
  commands_empty : link.commands.entries = []

theorem loopMicros_of_fits {timing : Timing} (fits : timing.Fits) :
    ∃ micros, timing.loopMicros = .ok micros := by
  refine ⟨UInt32.ofNat (timing.gyroMicros.toNat * timing.samplesPerLoop.toNat), ?_⟩
  rw [Timing.loopMicros, Fault.checkedMul_eq_ok_iff.mpr ⟨fits, rfl⟩]
  rfl

/-- A link is connected to any hardware as soon as the time of its frame fits. -/
theorem connect_of_fits {timing : Timing} (fits : timing.Fits) (settings : MotorSettings)
    (answers : Nat → Except ClaimError Channel) :
    ∃ micros : UInt32, connect settings timing answers = .ok
      ({ encoding := settings.protocol.encoding
         telemetry := settings.telemetry
         burst := settings.burst
         motors := (claimAll settings answers).motors
         timers := (claimAll settings answers).timers
         commands := .empty micros.toNat
         counters := .zero },
        (claimAll settings answers).calls) := by
  rcases loopMicros_of_fits fits with ⟨micros, loopMicros⟩
  refine ⟨micros, ?_⟩
  rw [connect, loopMicros]
  rfl

/-- A link that was connected is the one of `connect_of_fits`, with the calls of its claims. -/
theorem exists_micros_of_connect {settings : MotorSettings} {timing : Timing}
    {answers : Nat → Except ClaimError Channel} {link : Link} {init : List Call}
    (connected : connect settings timing answers = .ok (link, init)) :
    ∃ micros, timing.loopMicros = .ok micros ∧ init = (claimAll settings answers).calls ∧
      link =
        { encoding := settings.protocol.encoding
          telemetry := settings.telemetry
          burst := settings.burst
          motors := (claimAll settings answers).motors
          timers := (claimAll settings answers).timers
          commands := .empty micros.toNat
          counters := .zero } := by
  unfold connect at connected
  cases loopMicros : timing.loopMicros with
  | error fault =>
      rw [loopMicros] at connected
      cases connected
  | ok micros =>
      rw [loopMicros] at connected
      cases connected
      exact ⟨micros, rfl, rfl, rfl⟩

theorem initial_of_connect {settings : MotorSettings} {timing : Timing}
    {answers : Nat → Except ClaimError Channel} {link : Link} {init : List Call}
    (connected : connect settings timing answers = .ok (link, init)) :
    link.Initial settings answers ∧ init = (claimAll settings answers).calls := by
  rcases Assignment.consistent_claimAll settings answers with ⟨consistent, used⟩
  unfold connect at connected
  cases micros : timing.loopMicros with
  | error fault =>
      rw [micros] at connected
      cases connected
  | ok micros =>
      rw [micros] at connected
      cases connected
      refine ⟨⟨⟨rfl, rfl, rfl, consistent.length_eq⟩, consistent.answered, consistent.fresh_timer,
        ?_, ?_, consistent.nodup, Queue.sound_empty _, rfl⟩, rfl⟩
      · intro motor channel wired
        rcases exists_motor?_of_channel? wired with ⟨state, found, rfl⟩
        exact consistent.known motor state found
      · intro timer timerMem
        rcases used timer timerMem with ⟨motor, state, found, onTimer⟩
        exact ⟨motor, state.channel, channel?_wiring found, onTimer⟩

theorem exists_initial {timing : Timing} (fits : timing.Fits) (settings : MotorSettings)
    (answers : Nat → Except ClaimError Channel) :
    ∃ link init, connect settings timing answers = .ok (link, init) ∧
      link.Initial settings answers ∧ init = (claimAll settings answers).calls := by
  rcases connect_of_fits fits settings answers with ⟨micros, connected⟩
  exact ⟨_, _, connected, initial_of_connect connected⟩

theorem Initial.soundMailboxes {settings : MotorSettings}
    {answers : Nat → Except ClaimError Channel} {link : Link}
    (initial : link.Initial settings answers) : link.SoundMailboxes := by
  intro motor state found
  rw [(initial.answered found).2.2]
  exact Mailbox.sound_new

theorem Initial.roomyBuffers {settings : MotorSettings}
    {answers : Nat → Except ClaimError Channel} {link : Link}
    (initial : link.Initial settings answers) : link.RoomyBuffers := by
  intro entry entryMem
  rw [initial.fresh_timer entry entryMem]
  simp [TimerState.ofTimer]

/-- Every motor has a lane where every claim was answered with one. -/
theorem Initial.lanesFit {settings : MotorSettings} {answers : Nat → Except ClaimError Channel}
    {link : Link} (initial : link.Initial settings answers)
    (lanes : settings.burst = true → ∀ motor channel, motor < settings.claimCount →
      answers motor = .ok channel → channel.index.toNat < channelsPerTimer) :
    link.wiring.LanesFit := by
  intro bursts motor channel wired
  rcases exists_motor?_of_channel? wired with ⟨state, found, rfl⟩
  rcases initial.answered found with ⟨inRange, answer, _⟩
  exact lanes (initial.burst_eq.symm.trans bursts) motor state.channel inRange answer

/-- No two motors have one channel where no two claims were answered with one. -/
theorem Initial.distinct {settings : MotorSettings} {answers : Nat → Except ClaimError Channel}
    {link : Link} (initial : link.Initial settings answers)
    (distinct : ∀ motor other channel, motor < settings.claimCount → other < settings.claimCount →
      answers motor = .ok channel → answers other = .ok channel → motor = other)
    {motor other : Nat} {channel : Channel} (wired : link.wiring.channel? motor = some channel)
    (otherWired : link.wiring.channel? other = some channel) : motor = other := by
  rcases exists_motor?_of_channel? wired with ⟨state, found, rfl⟩
  rcases exists_motor?_of_channel? otherWired with ⟨otherState, otherFound, sameChannel⟩
  rcases initial.answered found with ⟨inRange, answer, _⟩
  rcases initial.answered otherFound with ⟨otherInRange, otherAnswer, _⟩
  exact distinct motor other state.channel inRange otherInRange answer (sameChannel ▸ otherAnswer)

/-- Hardware that gives every motor a channel of its own makes a sound link. -/
theorem exists_connect {settings : MotorSettings} {timing : Timing}
    {answers : Nat → Except ClaimError Channel} (distinct : DistinctAnswers settings answers)
    (fits : timing.Fits) :
    ∃ link calls, connect settings timing answers = .ok (link, calls) ∧
      link.Fresh settings answers := by
  rcases exists_initial fits settings answers with ⟨link, init, connected, initial, _⟩
  refine ⟨link, init, connected, initial.toConfigured,
    ⟨⟨?_, initial.distinct fun _ _ _ => distinct.distinct, initial.known, initial.used,
      initial.nodup⟩, initial.roomyBuffers, initial.commands,
      fun found => initial.soundMailboxes _ _ found⟩, ?_, initial.fresh_timer,
    initial.commands_empty⟩
  · intro motor channel wired
    rcases exists_motor?_of_channel? wired with ⟨state, found, rfl⟩
    rcases initial.answered found with ⟨inRange, answer, _⟩
    exact distinct.index_lt inRange answer
  · intro motor state found
    exact ⟨state.channel, (initial.answered found).2⟩

end Link

namespace Bench

/-- A bench whose motors follow timer by timer, with some of them refused. -/
def inOrder (refusals : List (Nat × ClaimError)) : Bench where
  wiring := []
  refusals
  ready := []

theorem distinctAnswers_inOrder (refusals : List (Nat × ClaimError)) (settings : MotorSettings) :
    DistinctAnswers settings (inOrder refusals).answer := by
  have answered {motor : Nat} {channel : Channel}
      (answer : (inOrder refusals).answer motor = .ok channel) :
      channel = (inOrder refusals).channelOf motor := by
    unfold Bench.answer at answer
    split at answer
    · simp at answer
    · exact (Except.ok.inj answer).symm
  refine ⟨?_, ?_⟩
  · intro motor channel _ answer
    rw [answered answer]
    simp [channelOf, inOrder, channelsPerTimer]
    omega
  · intro motor other channel motorLt otherLt answer otherAnswer
    have same : (inOrder refusals).channelOf motor = (inOrder refusals).channelOf other :=
      (answered answer).symm.trans (answered otherAnswer)
    simp only [channelOf, inOrder, channelsPerTimer, List.getD_nil, Channel.mk.injEq,
      Timer.mk.injEq, ← UInt8.toNat_inj, UInt8.toNat_ofNat'] at same
    simp only [MotorSettings.claimCount, maxMotors] at motorLt otherLt
    omega

end Bench

end Rotor

import Rotor.Proofs.Link.Outlook

/-!
# Motors that do not notice each other

Two links are connected by the same settings to hardware that refuses different motors. A motor that
both have cannot tell them apart, nor two runs in which different things are done to the others.
-/

namespace Rotor

namespace Link

variable {link other : Link} {motor : Nat} {channel : Channel}

section Connecting

variable {settings : MotorSettings} {timing : Timing}
  {answers otherAnswers : Nat → Except ClaimError Channel} {channels : Nat → Channel}
  {init otherInit : List Call}

/-- A map from motors to channels in which no two motors share one. Of a channel number the low two
bits count, so a timer has at most four motors. -/
def Separate (settings : MotorSettings) (channels : Nat → Channel) : Prop :=
  ∀ motor < settings.claimCount, ∀ other < settings.claimCount,
    (channels motor).timer = (channels other).timer →
      (channels motor).toSet = (channels other).toSet → motor = other

instance (settings : MotorSettings) (channels : Nat → Channel) :
    Decidable (Separate settings channels) :=
  inferInstanceAs (Decidable (∀ _ < _, _))

/-- Claims are refused, or answered with the channels of a map. -/
def GrantsOnly (channels : Nat → Channel) (answers : Nat → Except ClaimError Channel) : Prop :=
  ∀ motor channel, answers motor = .ok channel → channel = channels motor

theorem Initial.channel_eq (initial : link.Initial settings answers)
    (grants : GrantsOnly channels answers) (wired : link.wiring.channel? motor = some channel) :
    motor < settings.claimCount ∧ channel = channels motor := by
  rcases exists_motor?_of_channel? wired with ⟨state, found, rfl⟩
  rcases initial.answered found with ⟨inRange, answer, _⟩
  exact ⟨inRange, grants motor state.channel answer⟩

theorem Initial.alone (initial : link.Initial settings answers) (single : settings.burst = false)
    (separate : Separate settings channels) (grants : GrantsOnly channels answers)
    (connected : link.isConnected motor = true) : Alone motor (channels motor) link.wiring := by
  rcases Option.isSome_iff_exists.mp connected with ⟨state, found⟩
  have wired := channel?_wiring found
  rcases initial.channel_eq grants wired with ⟨inRange, own⟩
  rw [own] at wired
  refine ⟨⟨wired, ?_⟩, initial.burst_eq.trans single, initial.known wired⟩
  intro other otherChannel otherWired sameTimer sameSet
  rcases initial.channel_eq grants otherWired with ⟨otherInRange, rfl⟩
  exact separate other otherInRange motor inRange sameTimer sameSet

theorem Initial.isDue (initial : link.Initial settings answers) (channel : Channel) :
    link.isDue channel = false := by
  rw [Link.isDue]
  cases found : link.timer? channel.timer with
  | none => rfl
  | some entry =>
      rw [initial.fresh_timer entry (mem_of_timer? found).1, Option.any_some]
      cases link.burst <;> simp [TimerState.due, TimerState.ofTimer]

/-- Before the first operation a motor is the same whatever other claims were answered. -/
theorem outlook_of_connect (connected : connect settings timing answers = .ok (link, init))
    (otherConnected : connect settings timing otherAnswers = .ok (other, otherInit))
    (wired : link.wiring.channel? motor = some channel)
    (otherWired : other.wiring.channel? motor = some channel) :
    link.outlook motor channel = other.outlook motor channel := by
  have initial := (initial_of_connect connected).1
  have otherInitial := (initial_of_connect otherConnected).1
  refine outlook_eq_iff.mpr ⟨initial.encoding_eq.trans otherInitial.encoding_eq.symm,
    initial.telemetry_eq.trans otherInitial.telemetry_eq.symm, ?_, ?_, ?_⟩
  · rcases exists_micros_of_connect connected with ⟨micros, loopMicros, _, rfl⟩
    rcases exists_micros_of_connect otherConnected with ⟨otherMicros, otherLoopMicros, _, rfl⟩
    rw [loopMicros] at otherLoopMicros
    cases otherLoopMicros
    rfl
  · rcases exists_motor?_of_channel? wired with ⟨state, found, own⟩
    rcases exists_motor?_of_channel? otherWired with ⟨otherState, otherFound, otherOwn⟩
    have fresh := (initial.answered found).2.2
    have otherFresh := (otherInitial.answered otherFound).2.2
    rw [found, otherFound, fresh, otherFresh, own, otherOwn]
  · rw [initial.isDue, otherInitial.isDue]

end Connecting

section Runs

/-- Two outcomes that one motor cannot tell apart: its telemetry, direction and value are the same,
the same was called on its channel in the same order, and the end of the next frame starts it in
both or in neither. -/
structure SameFor (motor : Nat) (channel : Channel) (one other : Link × List Call) : Prop where
  telemetryOf_eq : one.1.telemetryOf motor = other.1.telemetryOf motor
  direction_eq : one.1.direction motor = other.1.direction motor
  valueOf_eq : one.1.valueOf motor = other.1.valueOf motor
  naming_eq : naming channel one.2 = naming channel other.2
  starts_eq : one.1.endFrame.2.any (Call.startsChannel channel) =
    other.1.endFrame.2.any (Call.startsChannel channel)

/-- A channel is started by the end of a frame that is not held back, if it is due. -/
theorem starts_endFrame (nodup : link.wiring.timers.Nodup) (channel : Channel) :
    link.endFrame.2.any (Call.startsChannel channel) =
      (link.commands.tick.1 && link.isDue channel) := by
  rcases ticked : link.commands.tick with ⟨released, commands⟩
  cases released with
  | false =>
      rw [endFrame_of_held ticked]
      rfl
  | true =>
      have nodupTimers : ({ link with commands } : Link).wiring.timers.Nodup := nodup
      rw [endFrame_of_released ticked, ← isDue_eq_any_startsChannel nodupTimers]
      rfl

theorem sameFor_of_outlook {one other : Link × List Call}
    (same : one.1.outlook motor channel = other.1.outlook motor channel)
    (calls : naming channel one.2 = naming channel other.2) (nodup : one.1.wiring.timers.Nodup)
    (otherNodup : other.1.wiring.timers.Nodup) : SameFor motor channel one other := by
  rcases outlook_eq_iff.mp same with ⟨_, _, commands, motors, due⟩
  refine ⟨?_, ?_, ?_, calls, ?_⟩
  · rw [telemetryOf, telemetryOf, motors]
  · rw [direction, direction, motors]
  · rw [valueOf, valueOf, motors]
  · rw [starts_endFrame nodup, starts_endFrame otherNodup, commands, due]

end Runs

/-- Two links without bursts are connected by the same settings to hardware that gives no two motors
one channel, and both have the motor. Then runs in which the same is done to this motor and to all
together are the same for it, whatever claims of other motors are refused, and whatever is written
to them, completes for them and is captured from them. Since this holds of all runs, it holds after
every operation that both have in common. -/
theorem motors_isolated {settings : MotorSettings} {timing : Timing} {channels : Nat → Channel}
    {answers otherAnswers : Nat → Except ClaimError Channel} {link other : Link}
    {init otherInit : List Call} {motor : Nat} (single : settings.burst = false)
    (separate : Separate settings channels) (grants : GrantsOnly channels answers)
    (otherGrants : GrantsOnly channels otherAnswers)
    (connected : connect settings timing answers = .ok (link, init))
    (otherConnected : connect settings timing otherAnswers = .ok (other, otherInit))
    (present : link.isConnected motor = true) (otherPresent : other.isConnected motor = true)
    {ops otherOps : List Op}
    (common : ops.filter (Op.concerns motor) = otherOps.filter (Op.concerns motor)) :
    ∃ last calls otherLast otherCalls, link.run ops = .ok (last, calls) ∧
      other.run otherOps = .ok (otherLast, otherCalls) ∧
      SameFor motor (channels motor) (last, init ++ calls)
        (otherLast, otherInit ++ otherCalls) := by
  have initial := (initial_of_connect connected).1
  have otherInitial := (initial_of_connect otherConnected).1
  have alone := initial.alone single separate grants present
  have otherAlone := otherInitial.alone single separate otherGrants otherPresent
  have same := outlook_of_connect connected otherConnected alone.own otherAlone.own
  rcases exists_run_of_lanesFit (Wiring.lanesFit_of_single alone.single) ops with ⟨last, calls, run⟩
  rcases exists_run_of_lanesFit (Wiring.lanesFit_of_single otherAlone.single) otherOps with
    ⟨otherLast, otherCalls, otherRun⟩
  -- Both runs are compared with the one that leaves the other motors alone.
  rcases exists_run_of_lanesFit (Wiring.lanesFit_of_single otherAlone.single)
    (otherOps.filter (Op.concerns motor)) with ⟨plainLast, plainCalls, plainRun⟩
  rcases outlook_run alone otherAlone same run (common ▸ plainRun) with ⟨sameLast, sameCalls⟩
  rcases outlook_run otherAlone otherAlone rfl otherRun plainRun with ⟨otherSame, otherSameCalls⟩
  refine ⟨last, calls, otherLast, otherCalls, run, otherRun,
    sameFor_of_outlook (sameLast.trans otherSame.symm) ?_ ?_ ?_⟩
  · rw [naming_append, naming_append, naming_of_connect connected alone.toReserves,
      naming_of_connect otherConnected otherAlone.toReserves, sameCalls, otherSameCalls]
  · rw [wiring_run run]
    exact initial.nodup
  · rw [wiring_run otherRun]
    exact otherInitial.nodup

theorem grantsOnly_answer (bench : Bench) : GrantsOnly bench.channelOf bench.answer := by
  intro motor channel answer
  unfold Bench.answer at answer
  split at answer
  · cases answer
  · exact (Except.ok.inj answer).symm

/-- Motor 2 of four, once with motor 1 refused and once with motor 0, while motor 3 is sent other
values, answers in the one run and stays silent in the other. -/
theorem motors_isolated_of_refused_neighbours :
    let settings : MotorSettings := { motorCount := 4 }
    let ops : List Op := [.beginFrame, .write 0 100, .write 2 300, .write 3 400, .endFrame,
      .transferDone 2 .nothing, .transferDone 3 .nothing, .transferDone 3 (.ofWords [7]),
      .transferDone 2 (.ofWords (Protocol.dshot600.encoding.edges (Packet.reply 291 0) 7)),
      .beginFrame]
    let otherOps : List Op := [.beginFrame, .write 3 48, .write 2 300, .endFrame,
      .transferDone 2 .nothing, .write 1 500,
      .transferDone 2 (.ofWords (Protocol.dshot600.encoding.edges (Packet.reply 291 0) 7)),
      .beginFrame]
    ∃ link init other otherInit last calls otherLast otherCalls,
      connect settings {} (Bench.inOrder [(1, .noDma)]).answer = .ok (link, init) ∧
      connect settings {} (Bench.inOrder [(0, .channelInUse)]).answer = .ok (other, otherInit) ∧
      link.run ops = .ok (last, calls) ∧ other.run otherOps = .ok (otherLast, otherCalls) ∧
      SameFor 2 ((Bench.inOrder []).channelOf 2) (last, init ++ calls)
        (otherLast, otherInit ++ otherCalls) := by
  intro settings ops otherOps
  have fits : Timing.Fits {} := by decide
  have separate : Separate settings (Bench.inOrder []).channelOf := by decide
  have grants (refusals : List (Nat × ClaimError)) :
      GrantsOnly (Bench.inOrder []).channelOf (Bench.inOrder refusals).answer :=
    grantsOnly_answer (Bench.inOrder refusals)
  have common : ops.filter (Op.concerns 2) = otherOps.filter (Op.concerns 2) := rfl
  rcases connect_of_fits fits settings (Bench.inOrder [(1, .noDma)]).answer with
    ⟨micros, connected⟩
  rcases connect_of_fits fits settings (Bench.inOrder [(0, .channelInUse)]).answer with
    ⟨otherMicros, otherConnected⟩
  rcases motors_isolated rfl separate (grants _) (grants _) connected otherConnected rfl rfl
    common with ⟨last, calls, otherLast, otherCalls, run, otherRun, same⟩
  exact ⟨_, _, _, _, last, calls, otherLast, otherCalls, connected, otherConnected, run, otherRun,
    same⟩

end Link

end Rotor

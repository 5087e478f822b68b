import Rotor.Proofs.Link.Naming
import Rotor.Proofs.Link.Staging

/-!
# What a link has to do with one motor

Motors share the timers, the command queue and the counters of their link. `Link.outlook` is what a
link has to do with one motor: its record, whether its channel is loaded, and the queue. Without
bursts, and with no other motor on its channel, an operation on another motor leaves the outlook as
it is and makes no call that names the channel (`Link.outlook_foreign`). Every other operation
changes the outlook by what it was before (`Link.outlook_common`). So a run may be stripped of what
is done to other motors (`Link.outlook_run`).
-/

namespace Rotor

namespace Link

/-- Whether an operation has to do with a motor: all but the writes and the completed transfers of
other motors have. -/
def Op.concerns (motor : Nat) : Op → Bool
  | .write other _ | .transferDone other _ => other = motor
  | _ => true

/-- What a link has to do with one motor. -/
structure Outlook where
  encoding : Encoding
  telemetry : Bool
  commands : Queue
  motor? : Option MotorState
  /-- Whether the channel of the motor starts at the end of a frame. -/
  isDue : Bool

/-- What a link has to do with a motor that has the given channel. -/
def outlook (link : Link) (motor : Nat) (channel : Channel) : Outlook where
  encoding := link.encoding
  telemetry := link.telemetry
  commands := link.commands
  motor? := link.motor? motor
  isDue := link.isDue channel

/-- Without bursts, a motor whose channel is its own, on a timer in service. -/
structure Alone (motor : Nat) (channel : Channel) (wiring : Wiring) : Prop
    extends wiring.Reserves motor channel where
  single : wiring.burst = false
  known : channel.timer ∈ wiring.timers

variable {link next left right leftNext rightNext leftLast rightLast : Link} {op : Op}
  {ops : List Op} {motor : Nat} {state : MotorState} {channel : Channel}
  {made leftMade rightMade leftCalls rightCalls : List Call}

section Due

theorem isDue_of_timers (wiring : next.wiring = link.wiring) (timers : next.timers = link.timers)
    (channel : Channel) : next.isDue channel = link.isDue channel := by
  have burst : next.burst = link.burst := congrArg Wiring.burst wiring
  simp only [isDue, timer?, timers, burst]

/-- A write loads its own channel. -/
theorem isDue_staged_self (single : link.burst = false) (known : channel.timer ∈ link.wiring.timers)
    (target : Nat) (throttle : UInt16) :
    (link.staged target throttle channel).isDue channel = true := by
  have singleAfter : (link.staged target throttle channel).burst = false := single
  rcases exists_timer? known with ⟨found, isFound⟩
  have sameTimer := (mem_of_timer? isFound).2
  simp only [isDue, timer?_staged, isFound, Option.map_some, Option.any_some, sameTimer, if_true,
    TimerState.due, single, singleAfter, Bool.false_eq_true, if_false]
  simp [TimerState.stageChannel, Channel.toSet]

/-- A write loads no other channel. -/
theorem isDue_staged_of_apart (single : link.burst = false) {other : Channel}
    (apart : other.timer = channel.timer → other.toSet ≠ channel.toSet) (target : Nat)
    (throttle : UInt16) :
    (link.staged target throttle other).isDue channel = link.isDue channel := by
  have singleAfter : (link.staged target throttle other).burst = false := single
  simp only [isDue, timer?_staged, singleAfter, single, Bool.false_eq_true, if_false]
  cases found : link.timer? channel.timer with
  | none => rfl
  | some entry =>
      have onTimer := (mem_of_timer? found).2
      simp only [Option.map_some, Option.any_some]
      split
      · next sameTimer =>
        have unloaded : other.toSet.contains channel.index = false :=
          ChannelSet.contains_single_of_single_ne (apart (sameTimer.symm.trans onTimer))
        simp [TimerState.due, TimerState.stageChannel, unloaded]
      · rfl

/-- After a start no channel is loaded. -/
theorem isDue_fire (single : link.burst = false) (channel : Channel) :
    link.fire.1.isDue channel = false := by
  have singleAfter : link.fire.1.burst = false := single
  simp only [isDue, singleAfter]
  cases found : link.fire.1.timer? channel.timer with
  | none => rfl
  | some entry =>
      rcases List.mem_map.mp (mem_of_timer? found).1 with ⟨before, _, rfl⟩
      simp [TimerState.due, TimerState.started, single]

end Due

section Transfers

/-- A completed output stops its own channel, and with telemetry turns it to input. -/
theorem naming_sent (alone : Alone motor channel link.wiring)
    (found : link.motor? motor = some state) (target : Nat) (targetState : MotorState) :
    naming channel (link.sent target targetState).2 =
      naming channel [.halt targetState.channel] ++
        if link.telemetry && motor = target && state.direction == .output then
          [.listen state.channel, .arm state.channel link.encoding.captureLength]
        else [] := by
  have single : link.burst = false := alone.single
  have stop : link.stopCall targetState.channel = .halt targetState.channel := by
    simp [stopCall, single]
  rcases Bool.eq_false_or_eq_true link.telemetry with speaking | silent
  · have flips := naming_flipWhere alone.toReserves found (link.sharesStop target targetState)
    rw [sent_of_speaking speaking, stop]
    dsimp only
    rw [← List.singleton_append, naming_append, flips]
    simp [sharesStop, single, speaking]
  · rw [sent_of_silent silent, stop]
    simp [silent]

/-- A completed transfer of another motor does not touch the motor, nor its channel. -/
theorem transferDone_foreign (alone : Alone motor channel link.wiring) {target : Nat}
    (differ : target ≠ motor) (capture : Capture) :
    (link.transferDone target capture).1.motor? motor = link.motor? motor ∧
      naming channel (link.transferDone target capture).2 = [] := by
  have single : link.burst = false := alone.single
  cases found : link.motor? target with
  | none =>
      rw [transferDone_of_absent found]
      exact ⟨rfl, rfl⟩
  | some state =>
      have elsewhere : state.channel ≠ channel := alone.channel_ne (channel?_wiring found) differ
      cases direction : state.direction with
      | input =>
          refine ⟨?_, ?_⟩
          · rw [motor?_transferDone_of_input found direction, if_neg differ]
          · rw [transferDone_of_input found direction]
            apply naming_of_none
            by_cases empty : state.mailbox.phase = .empty
            · simp [received_of_empty empty, Call.channel?, elsewhere]
            · simp [received_of_taken empty, Call.channel?, elsewhere]
      | output =>
          have unshared (other : MotorState) :
              link.sharesStop target state motor other = false := by
            simp [sharesStop, single, Ne.symm differ]
          refine ⟨?_, ?_⟩
          · rw [motor?_transferDone_of_output found direction]
            simp [unshared]
          · rcases exists_motor?_of_channel? alone.own with ⟨own, ownFound, _⟩
            rw [transferDone_of_output found direction]
            dsimp only
            rw [naming_append, naming_sent alone ownFound, naming_singleton, naming_singleton]
            simp [Call.channel?, elsewhere, Ne.symm differ]

end Transfers

section Steps

theorem outlook_eq_iff : left.outlook motor channel = right.outlook motor channel ↔
    left.encoding = right.encoding ∧ left.telemetry = right.telemetry ∧
      left.commands = right.commands ∧ left.motor? motor = right.motor? motor ∧
        left.isDue channel = right.isDue channel := by
  simp [outlook]

theorem outlook_of_wiring (same : left.outlook motor channel = right.outlook motor channel)
    (leftWiring : leftNext.wiring = left.wiring) (rightWiring : rightNext.wiring = right.wiring)
    (commands : leftNext.commands = rightNext.commands)
    (motors : leftNext.motor? motor = rightNext.motor? motor)
    (due : leftNext.isDue channel = rightNext.isDue channel) :
    leftNext.outlook motor channel = rightNext.outlook motor channel := by
  rcases outlook_eq_iff.mp same with ⟨encoding, telemetry, _⟩
  refine outlook_eq_iff.mpr ⟨?_, ?_, commands, motors, due⟩
  · exact (congrArg Wiring.encoding leftWiring).trans
      (encoding.trans (congrArg Wiring.encoding rightWiring).symm)
  · exact (congrArg Wiring.telemetry leftWiring).trans
      (telemetry.trans (congrArg Wiring.telemetry rightWiring).symm)

theorem outlook_withCommands (same : left.outlook motor channel = right.outlook motor channel)
    (commands : Queue) :
    ({ left with commands } : Link).outlook motor channel =
      ({ right with commands } : Link).outlook motor channel := by
  rcases outlook_eq_iff.mp same with ⟨encoding, telemetry, _, motors, due⟩
  exact outlook_eq_iff.mpr ⟨encoding, telemetry, rfl, motors, due⟩

/-- A start is for whole timers. -/
theorem naming_fire (link : Link) (channel : Channel) : naming channel link.fire.2 = [] := by
  apply naming_of_none
  intro call callMem
  rcases mem_calls_fire.mp callMem with ⟨entry, _, starts⟩
  rw [eq_of_startCall? starts]
  split <;> nofun

/-- An operation on another motor leaves the outlook as it is, and calls nothing on the channel. -/
theorem outlook_foreign (alone : Alone motor channel link.wiring)
    (foreign : op.concerns motor = false) (effect : link.Effect op next made) :
    next.outlook motor channel = link.outlook motor channel ∧ naming channel made = [] := by
  have single : link.burst = false := alone.single
  cases effect with
  | writeAbsent throttle absent => exact ⟨rfl, rfl⟩
  | @write target state throttle found =>
      have differ : target ≠ motor := by simpa [Op.concerns] using foreign
      have wired := channel?_wiring found
      refine ⟨outlook_eq_iff.mpr ⟨rfl, rfl, rfl, ?_, ?_⟩, ?_⟩
      · rw [motor?_staged, if_neg differ]
      · apply isDue_staged_of_apart single
        intro sameTimer sameSet
        exact differ (alone.apart target state.channel wired sameTimer sameSet)
      · have elsewhere : state.channel ≠ channel := alone.channel_ne wired differ
        rw [single]
        simp [naming, Call.channel?, elsewhere]
  | transferDone target capture =>
      have differ : target ≠ motor := by simpa [Op.concerns] using foreign
      rcases transferDone_foreign alone differ capture with ⟨motors, unnamed⟩
      have wiring := wiring_transferDone link target capture
      have due := isDue_of_timers wiring (timers_transferDone link target capture) channel
      exact ⟨outlook_of_wiring rfl wiring rfl (commands_transferDone ..) motors due, unnamed⟩
  | beginFrame => cases foreign
  | endHeld held => cases foreign
  | endReleased released => cases foreign
  | send target command => cases foreign

section Common

variable (leftAlone : Alone motor channel left.wiring)
  (rightAlone : Alone motor channel right.wiring)
  (same : left.outlook motor channel = right.outlook motor channel)

include leftAlone same

/-- The motor has the same record in two links with the same outlook. -/
theorem exists_motor?_of_outlook : ∃ state, left.motor? motor = some state ∧
    right.motor? motor = some state ∧ state.channel = channel := by
  rcases exists_motor?_of_channel? leftAlone.own with ⟨state, found, own⟩
  rcases outlook_eq_iff.mp same with ⟨_, _, _, motors, _⟩
  exact ⟨state, found, motors.symm.trans found, own⟩

include rightAlone

theorem outlook_beginFrame :
    left.beginFrame.1.outlook motor channel = right.beginFrame.1.outlook motor channel ∧
      naming channel left.beginFrame.2 = naming channel right.beginFrame.2 := by
  rcases outlook_eq_iff.mp same with ⟨encoding, telemetry, commands, motors, due⟩
  rcases exists_motor?_of_outlook leftAlone same with ⟨state, leftFound, rightFound, _⟩
  rcases Bool.eq_false_or_eq_true left.telemetry with leftSpeaks | leftSilent
  · have rightSpeaks : right.telemetry = true := telemetry.symm.trans leftSpeaks
    refine ⟨outlook_of_wiring same (wiring_beginFrame left) (wiring_beginFrame right) ?_ ?_ ?_, ?_⟩
    · rw [commands_beginFrame, commands_beginFrame, commands]
    · rw [motor?_beginFrame leftSpeaks, motor?_beginFrame rightSpeaks, motors, encoding]
    · rw [isDue_of_timers (wiring_beginFrame left) (timers_beginFrame left),
        isDue_of_timers (wiring_beginFrame right) (timers_beginFrame right), due]
    · rw [naming_beginFrame leftSpeaks leftAlone.toReserves leftFound,
        naming_beginFrame rightSpeaks rightAlone.toReserves rightFound, encoding]
  · have rightSilent : right.telemetry = false := telemetry.symm.trans leftSilent
    rw [beginFrame_of_silent leftSilent, beginFrame_of_silent rightSilent]
    exact ⟨same, rfl⟩

theorem outlook_staged (throttle : UInt16) :
    (left.staged motor throttle channel).outlook motor channel =
        (right.staged motor throttle channel).outlook motor channel ∧
      left.wordsFor motor throttle = right.wordsFor motor throttle := by
  rcases outlook_eq_iff.mp same with ⟨encoding, telemetry, commands, motors, _⟩
  have values : left.valueFor motor throttle = right.valueFor motor throttle := by
    simp only [valueFor, override?, commands]
  refine ⟨outlook_of_wiring same (wiring_staged ..) (wiring_staged ..) commands ?_ ?_, ?_⟩
  · rw [motor?_staged, motor?_staged, motors, values]
  · rw [isDue_staged_self leftAlone.single leftAlone.known,
      isDue_staged_self rightAlone.single rightAlone.known]
  · simp only [wordsFor, packetFor, override?, encoding, telemetry, commands]

theorem outlook_fire :
    left.fire.1.outlook motor channel = right.fire.1.outlook motor channel := by
  rcases outlook_eq_iff.mp same with ⟨_, telemetry, commands, motors, due⟩
  rcases exists_motor?_of_outlook leftAlone same with
    ⟨state, leftFound, rightFound, own⟩
  refine outlook_of_wiring same (wiring_fire left) (wiring_fire right) commands ?_ ?_
  · rw [motor?_fire, motor?_fire, leftFound, rightFound, Option.map_some, Option.map_some, own,
      telemetry, due]
  · rw [isDue_fire leftAlone.single, isDue_fire rightAlone.single]

theorem outlook_transferDone (capture : Capture) :
    (left.transferDone motor capture).1.outlook motor channel =
        (right.transferDone motor capture).1.outlook motor channel ∧
      naming channel (left.transferDone motor capture).2 =
        naming channel (right.transferDone motor capture).2 := by
  rcases outlook_eq_iff.mp same with ⟨encoding, telemetry, commands, motors, due⟩
  rcases exists_motor?_of_outlook leftAlone same with ⟨state, leftFound, rightFound, _⟩
  have outlooks (motorsAfter : (left.transferDone motor capture).1.motor? motor =
      (right.transferDone motor capture).1.motor? motor) :
      (left.transferDone motor capture).1.outlook motor channel =
        (right.transferDone motor capture).1.outlook motor channel := by
    refine outlook_of_wiring same (wiring_transferDone ..) (wiring_transferDone ..) ?_
      motorsAfter ?_
    · rw [commands_transferDone, commands_transferDone, commands]
    · rw [isDue_of_timers (wiring_transferDone ..) (timers_transferDone ..),
        isDue_of_timers (wiring_transferDone ..) (timers_transferDone ..), due]
  cases direction : state.direction with
  | input =>
      refine ⟨outlooks ?_, ?_⟩
      · rw [motor?_transferDone_of_input leftFound direction,
          motor?_transferDone_of_input rightFound direction, if_pos rfl, if_pos rfl, encoding]
      · rw [transferDone_of_input leftFound direction, transferDone_of_input rightFound direction]
        dsimp only
        by_cases empty : state.mailbox.phase = .empty
        · rw [received_of_empty empty, received_of_empty empty, encoding]
        · rw [received_of_taken empty, received_of_taken empty]
  | output =>
      have leftSingle : left.burst = false := leftAlone.single
      have rightSingle : right.burst = false := rightAlone.single
      refine ⟨outlooks ?_, ?_⟩
      · rw [motor?_transferDone_of_output leftFound direction,
          motor?_transferDone_of_output rightFound direction, motors, telemetry]
        simp only [sharesStop, leftSingle, rightSingle]
      · rw [transferDone_of_output leftFound direction, transferDone_of_output rightFound direction]
        dsimp only
        rw [naming_append, naming_append, naming_sent leftAlone leftFound,
          naming_sent rightAlone rightFound, encoding, telemetry]

theorem outlook_endFrame :
    left.endFrame.1.outlook motor channel = right.endFrame.1.outlook motor channel ∧
      naming channel left.endFrame.2 = naming channel right.endFrame.2 := by
  have queues : left.commands = right.commands := congrArg Outlook.commands same
  rcases ticked : left.commands.tick with ⟨released, commands⟩
  have rightTicked : right.commands.tick = (released, commands) := queues ▸ ticked
  cases released with
  | false =>
      rw [endFrame_of_held ticked, endFrame_of_held rightTicked]
      exact ⟨outlook_withCommands same commands, rfl⟩
  | true =>
      rw [endFrame_of_released ticked, endFrame_of_released rightTicked, naming_fire, naming_fire]
      exact ⟨outlook_fire leftAlone rightAlone (outlook_withCommands same commands), rfl⟩

/-- An operation that has to do with the motor changes the outlook, and calls on the channel, by
what the outlook was before. -/
theorem outlook_common (concerned : op.concerns motor = true)
    (leftStep : left.step op = .ok (leftNext, leftMade))
    (rightStep : right.step op = .ok (rightNext, rightMade)) :
    leftNext.outlook motor channel = rightNext.outlook motor channel ∧
      naming channel leftMade = naming channel rightMade := by
  cases op with
  | beginFrame =>
      obtain ⟨rfl, rfl⟩ := Prod.mk.inj (Except.ok.inj leftStep)
      obtain ⟨rfl, rfl⟩ := Prod.mk.inj (Except.ok.inj rightStep)
      exact outlook_beginFrame leftAlone rightAlone same
  | write target throttle =>
      obtain rfl : target = motor := by simpa [Op.concerns] using concerned
      rcases exists_motor?_of_outlook leftAlone same with ⟨state, leftFound, rightFound, rfl⟩
      have leftSingle : left.burst = false := leftAlone.single
      have rightSingle : right.burst = false := rightAlone.single
      rw [step, write_of_connected leftFound (by simp [leftSingle]), leftSingle] at leftStep
      rw [step, write_of_connected rightFound (by simp [rightSingle]), rightSingle] at rightStep
      cases leftStep
      cases rightStep
      rcases outlook_staged leftAlone rightAlone same throttle with ⟨staged, words⟩
      rw [words]
      exact ⟨staged, rfl⟩
  | endFrame =>
      obtain ⟨rfl, rfl⟩ := Prod.mk.inj (Except.ok.inj leftStep)
      obtain ⟨rfl, rfl⟩ := Prod.mk.inj (Except.ok.inj rightStep)
      exact outlook_endFrame leftAlone rightAlone same
  | transferDone target capture =>
      obtain rfl : target = motor := by simpa [Op.concerns] using concerned
      cases leftStep
      cases rightStep
      exact outlook_transferDone leftAlone rightAlone same capture
  | send target command =>
      have queues : left.commands = right.commands := congrArg Outlook.commands same
      cases leftStep
      cases rightStep
      refine ⟨?_, rfl⟩
      simp only [send, queues]
      exact outlook_withCommands same _

end Common

/-- A run shows the motor what the run without the operations on other motors shows it. -/
theorem outlook_run (leftAlone : Alone motor channel left.wiring)
    (rightAlone : Alone motor channel right.wiring)
    (same : left.outlook motor channel = right.outlook motor channel)
    (leftRun : left.run ops = .ok (leftLast, leftCalls))
    (rightRun : right.run (ops.filter (Op.concerns motor)) = .ok (rightLast, rightCalls)) :
    leftLast.outlook motor channel = rightLast.outlook motor channel ∧
      naming channel leftCalls = naming channel rightCalls := by
  induction ops generalizing left right leftCalls rightCalls with
  | nil =>
      cases leftRun
      cases rightRun
      exact ⟨same, rfl⟩
  | cons op rest ih =>
      rcases run_cons_eq_ok_iff.mp leftRun with
        ⟨leftNext, leftMade, leftMore, leftStep, leftRest, rfl⟩
      have leftWiring := wiring_effect (effect_of_step leftStep)
      rw [← leftWiring] at leftAlone
      cases concerned : op.concerns motor with
      | true =>
          rw [List.filter_cons_of_pos concerned] at rightRun
          rcases run_cons_eq_ok_iff.mp rightRun with
            ⟨rightNext, rightMade, rightMore, rightStep, rightRest, rfl⟩
          have rightWiring := wiring_effect (effect_of_step rightStep)
          rcases outlook_common (leftWiring ▸ leftAlone) rightAlone same concerned leftStep
            rightStep with ⟨sameNext, sameMade⟩
          rw [← rightWiring] at rightAlone
          rcases ih leftAlone rightAlone sameNext leftRest rightRest with ⟨sameLast, sameMore⟩
          refine ⟨sameLast, ?_⟩
          rw [naming_append, naming_append, sameMade, sameMore]
      | false =>
          rw [List.filter_cons_of_neg (by simp [concerned])] at rightRun
          rcases outlook_foreign (leftWiring ▸ leftAlone) concerned (effect_of_step leftStep) with
            ⟨unchanged, unnamed⟩
          rcases ih leftAlone rightAlone (unchanged.trans same) leftRest rightRun with
            ⟨sameLast, sameMore⟩
          refine ⟨sameLast, ?_⟩
          rw [naming_append, unnamed, List.nil_append, sameMore]

end Steps

end Link

end Rotor

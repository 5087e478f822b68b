import Mathlib.Data.List.Basic
import Rotor.Link.Run

/-!
# What the operations of a link change

Every operation treats the motors one by one: what a motor is afterwards depends on what it was, and
on the operation. This file states that for each operation, beside what happens to the timers, the
queue and the counters. The files after it cite these equations and open no operation.
-/

namespace Rotor

/-- A capture of which at most `room` words are written. -/
def Capture.cut (capture : Capture) (room : Nat) : Capture :=
  { capture with words := capture.words.take room }

namespace Link

variable {link next : Link} {motor other : Nat} {state : MotorState}

section Pointwise

theorem motor?_of_mapIdx (change : Nat → MotorState → MotorState)
    (motors : next.motors = link.motors.mapIdx fun motor => Option.map (change motor))
    (motor : Nat) : next.motor? motor = (link.motor? motor).map (change motor) := by
  simp [motor?, motors, Option.join_map_eq_map_join]

theorem motor?_of_map (change : MotorState → MotorState)
    (motors : next.motors = link.motors.map (Option.map change)) (motor : Nat) :
    next.motor? motor = (link.motor? motor).map change := by
  simp [motor?, motors, Option.join_map_eq_map_join]

theorem motor?_of_modify {target : Nat} (change : MotorState → MotorState)
    (motors : next.motors = link.motors.modify target (Option.map change)) (motor : Nat) :
    next.motor? motor =
      if target = motor then (link.motor? motor).map change else link.motor? motor := by
  simp only [motor?, motors, List.getElem?_modify]
  split <;> simp [Option.join_map_eq_map_join]

end Pointwise

section BeginFrame

theorem beginFrame_of_silent (silent : link.telemetry = false) : link.beginFrame = (link, []) := by
  simp [beginFrame, silent]

theorem motor?_beginFrame (speaking : link.telemetry = true) (motor : Nat) :
    link.beginFrame.1.motor? motor = (link.motor? motor).map (·.begin link.encoding) := by
  apply motor?_of_map
  simp [beginFrame, speaking]

@[simp]
theorem timers_beginFrame (link : Link) : link.beginFrame.1.timers = link.timers := by
  unfold beginFrame
  split <;> rfl

@[simp]
theorem commands_beginFrame (link : Link) : link.beginFrame.1.commands = link.commands := by
  unfold beginFrame
  split <;> rfl

end BeginFrame

section Write

/-- The words that a motor is sent for a throttle value. -/
def wordsFor (link : Link) (motor : Nat) (throttle : UInt16) : List UInt32 :=
  link.encoding.frame (link.packetFor motor throttle)

/-- The link after a throttle value was staged for a motor on the given channel. -/
def staged (link : Link) (motor : Nat) (throttle : UInt16) (channel : Channel) : Link :=
  (link.updateMotor motor fun state =>
    { state with value := link.valueFor motor throttle }).updateTimer channel.timer fun entry =>
      if link.burst then entry.stageBurst (link.wordsFor motor throttle) channel.index.toNat
      else entry.stageChannel channel

theorem write_of_absent (absent : link.motor? motor = none) (throttle : UInt16) :
    link.write motor throttle = .ok (link, []) := by
  simp [write, absent]

theorem write_of_connected (found : link.motor? motor = some state)
    (inRange : link.burst = true → state.channel.index.toNat ≤ TimerState.burstCapacity)
    (throttle : UInt16) :
    link.write motor throttle = .ok (link.staged motor throttle state.channel,
      if link.burst then [] else [.load state.channel (link.wordsFor motor throttle)]) := by
  cases burst : link.burst with
  | false => simp [write, found, burst, staged, wordsFor]
  | true => simp [write, found, burst, staged, wordsFor, Nat.not_lt.mpr (inRange burst)]

theorem motor?_staged (link : Link) (target : Nat) (throttle : UInt16) (channel : Channel)
    (motor : Nat) :
    (link.staged target throttle channel).motor? motor =
      if target = motor then
        (link.motor? motor).map fun state => { state with value := link.valueFor target throttle }
      else link.motor? motor :=
  motor?_of_modify _ rfl motor

/-- Of a motor, a write changes nothing but its value. -/
theorem map_motor?_staged {α : Type} (view : MotorState → α)
    (ofValue : ∀ state value, view { state with value } = view state)
    (link : Link) (target : Nat) (throttle : UInt16) (channel : Channel) (motor : Nat) :
    ((link.staged target throttle channel).motor? motor).map view =
      (link.motor? motor).map view := by
  rw [motor?_staged]
  split
  · rw [Option.map_map]
    congr 1
    funext state
    exact ofValue state _
  · rfl

theorem direction_staged (link : Link) (target : Nat) (throttle : UInt16) (channel : Channel)
    (motor : Nat) :
    (link.staged target throttle channel).direction motor = link.direction motor :=
  map_motor?_staged _ (fun _ _ => rfl) link target throttle channel motor

end Write

section EndFrame

theorem endFrame_of_held {commands : Queue} (held : link.commands.tick = (false, commands)) :
    link.endFrame = ({ link with commands }, []) := by
  simp [endFrame, held]

theorem endFrame_of_released {commands : Queue}
    (released : link.commands.tick = (true, commands)) :
    link.endFrame = fire { link with commands } := by
  simp [endFrame, released]

theorem motor?_fire (link : Link) (motor : Nat) :
    link.fire.1.motor? motor = (link.motor? motor).map fun state =>
      { state with
        owesReply := state.owesReply || (link.telemetry && link.isDue state.channel) } :=
  motor?_of_map _ rfl motor

/-- Of a motor, a start changes nothing but whether it owes a reply. -/
theorem map_motor?_fire {α : Type} (view : MotorState → α)
    (ofOwesReply : ∀ state owesReply, view { state with owesReply } = view state)
    (link : Link) (motor : Nat) :
    (link.fire.1.motor? motor).map view = (link.motor? motor).map view := by
  rw [motor?_fire, Option.map_map]
  congr 1
  funext state
  exact ofOwesReply state _

theorem direction_fire (link : Link) (motor : Nat) :
    link.fire.1.direction motor = link.direction motor :=
  map_motor?_fire _ (fun _ _ => rfl) link motor

end EndFrame

section TransferDone

/-- Whether a motor stops sending together with another one: with bursts if it is on the same
timer, else only if it is the same. -/
def sharesStop (link : Link) (target : Nat) (state : MotorState) (motor : Nat)
    (other : MotorState) : Bool :=
  if link.burst then other.channel.timer = state.channel.timer else motor = target

/-- The call that stops the transfer of a channel that has finished sending. -/
def stopCall (link : Link) (channel : Channel) : Call :=
  if link.burst then .haltBurst channel.timer else .halt channel

theorem motor?_flipWhere (link : Link) (chosen : Nat → MotorState → Bool) (motor : Nat) :
    (link.flipWhere chosen).1.motor? motor = (link.motor? motor).map fun state =>
      if chosen motor state && state.direction == .output then state.flip else state :=
  motor?_of_mapIdx (fun motor state =>
    if chosen motor state && state.direction == .output then state.flip else state) rfl motor

theorem transferDone_of_absent (absent : link.motor? motor = none) (capture : Capture) :
    link.transferDone motor capture = (link, [.acknowledge motor]) := by
  simp [transferDone, absent]

theorem transferDone_of_input (found : link.motor? motor = some state)
    (listening : state.direction = .input) (capture : Capture) :
    link.transferDone motor capture =
      ((link.received motor state capture).1,
        (link.received motor state capture).2 ++ [.acknowledge motor]) := by
  simp [transferDone, found, listening]

theorem transferDone_of_output (found : link.motor? motor = some state)
    (driving : state.direction = .output) (capture : Capture) :
    link.transferDone motor capture =
      ((link.sent motor state).1, (link.sent motor state).2 ++ [.acknowledge motor]) := by
  simp [transferDone, found, driving]

theorem sent_of_silent (silent : link.telemetry = false) (motor : Nat) (state : MotorState) :
    link.sent motor state = (link, [link.stopCall state.channel]) := by
  simp [sent, silent, stopCall]

theorem sent_of_speaking (speaking : link.telemetry = true) (motor : Nat)
    (state : MotorState) :
    link.sent motor state =
      ((link.flipWhere (link.sharesStop motor state)).1,
        link.stopCall state.channel :: (link.flipWhere (link.sharesStop motor state)).2) := by
  simp only [sent, speaking, if_true]
  rfl

theorem received_of_empty (empty : state.mailbox.phase = .empty) (capture : Capture) :
    link.received motor state capture =
      ({ link with
          motors := link.motors.modify motor (Option.map fun other =>
            { other with
              mailbox := (state.mailbox.deposit (capture.cut link.encoding.captureLength)).2 })
          counters := { link.counters with captured := link.counters.captured + 1 } },
        [.halt state.channel, .fetch state.channel link.encoding.captureLength]) := by
  simp [received, Mailbox.deposit, Mailbox.beginDeposit?, empty, Capture.cut]

theorem received_of_taken (taken : state.mailbox.phase ≠ .empty) (capture : Capture) :
    link.received motor state capture = (link, [.halt state.channel]) := by
  simp [received, Mailbox.deposit, Mailbox.beginDeposit?, taken]

theorem motor?_received {target : Nat} (found : link.motor? target = some state)
    (capture : Capture) (motor : Nat) :
    (link.received target state capture).1.motor? motor =
      if target = motor then
        some { state with
          mailbox := (state.mailbox.deposit (capture.cut link.encoding.captureLength)).2 }
      else link.motor? motor := by
  by_cases empty : state.mailbox.phase = .empty
  · rw [received_of_empty empty]
    rw [motor?_of_modify _ rfl]
    split
    · next same =>
      subst same
      simp [found]
    · rfl
  · rw [received_of_taken empty]
    split
    · next same =>
      subst same
      simp [found, Mailbox.deposit, Mailbox.beginDeposit?, empty]
    · rfl

/-- Of a motor, a capture changes nothing but the mailbox. -/
theorem map_motor?_received {α : Type} (view : MotorState → α)
    (ofMailbox : ∀ state mailbox, view { state with mailbox } = view state) {target : Nat}
    (found : link.motor? target = some state) (capture : Capture) (motor : Nat) :
    ((link.received target state capture).1.motor? motor).map view =
      (link.motor? motor).map view := by
  rw [motor?_received found]
  split
  · next same =>
    subst same
    simp [found, ofMailbox]
  · rfl

theorem direction_received {target : Nat} (found : link.motor? target = some state)
    (capture : Capture) (motor : Nat) :
    (link.received target state capture).1.direction motor = link.direction motor :=
  map_motor?_received _ (fun _ _ => rfl) found capture motor

theorem motor?_transferDone_of_input {target : Nat} (found : link.motor? target = some state)
    (listening : state.direction = .input) (capture : Capture) (motor : Nat) :
    (link.transferDone target capture).1.motor? motor =
      if target = motor then
        some { state with
          mailbox := (state.mailbox.deposit (capture.cut link.encoding.captureLength)).2 }
      else link.motor? motor := by
  rw [transferDone_of_input found listening]
  exact motor?_received found capture motor

theorem received_fst (link : Link) (target : Nat) (state : MotorState) (capture : Capture) :
    (link.received target state capture).1 =
      { link with
        motors := (link.received target state capture).1.motors
        counters := { link.counters with
          captured := link.counters.captured +
            if state.mailbox.phase = .empty then 1 else 0 } } := by
  by_cases empty : state.mailbox.phase = .empty
  · simp [received_of_empty empty, empty]
  · simp [received_of_taken empty, empty]

@[simp]
theorem motorCount_received (link : Link) (target : Nat) (state : MotorState)
    (capture : Capture) : (link.received target state capture).1.motorCount = link.motorCount := by
  by_cases empty : state.mailbox.phase = .empty
  · simp [received_of_empty empty, motorCount]
  · rw [received_of_taken empty]

theorem motor?_transferDone_of_output {target : Nat} (found : link.motor? target = some state)
    (driving : state.direction = .output) (capture : Capture) (motor : Nat) :
    (link.transferDone target capture).1.motor? motor =
      (link.motor? motor).map fun other =>
        if link.telemetry && link.sharesStop target state motor other &&
            other.direction == .output then
          other.flip
        else other := by
  rw [transferDone_of_output found driving]
  cases speaking : link.telemetry with
  | false => simp [sent_of_silent speaking]
  | true =>
      rw [sent_of_speaking speaking]
      simpa using motor?_flipWhere link (link.sharesStop target state) motor

/-- Of a motor, a completed transfer changes nothing but its direction and its mailbox. -/
theorem map_motor?_transferDone {α : Type} (view : MotorState → α)
    (ofFlip : ∀ state, view state.flip = view state)
    (ofMailbox : ∀ state mailbox, view { state with mailbox } = view state)
    (link : Link) (target : Nat) (capture : Capture) (motor : Nat) :
    ((link.transferDone target capture).1.motor? motor).map view =
      (link.motor? motor).map view := by
  cases found : link.motor? target with
  | none => rw [transferDone_of_absent found]
  | some state =>
      cases direction : state.direction with
      | input =>
          rw [transferDone_of_input found direction]
          exact map_motor?_received view ofMailbox found capture motor
      | output =>
          rw [motor?_transferDone_of_output found direction, Option.map_map]
          congr 1
          funext other
          simp only [Function.comp_apply]
          split
          · exact ofFlip other
          · rfl

theorem transferDone_fst (link : Link) (target : Nat) (capture : Capture) :
    (link.transferDone target capture).1 =
      { link with
        motors := (link.transferDone target capture).1.motors
        counters := (link.transferDone target capture).1.counters } := by
  cases found : link.motor? target with
  | none => rw [transferDone_of_absent found]
  | some state =>
      cases direction : state.direction with
      | input =>
          rw [transferDone_of_input found direction, received_fst]
      | output =>
          rw [transferDone_of_output found direction]
          rcases Bool.eq_false_or_eq_true link.telemetry with speaking | silent
          · rw [sent_of_speaking speaking]
            rfl
          · rw [sent_of_silent silent]

@[simp]
theorem timers_transferDone (link : Link) (target : Nat) (capture : Capture) :
    (link.transferDone target capture).1.timers = link.timers := by
  rw [transferDone_fst]

@[simp]
theorem commands_transferDone (link : Link) (target : Nat) (capture : Capture) :
    (link.transferDone target capture).1.commands = link.commands := by
  rw [transferDone_fst]

@[simp]
theorem motorCount_transferDone (link : Link) (target : Nat) (capture : Capture) :
    (link.transferDone target capture).1.motorCount = link.motorCount := by
  cases found : link.motor? target with
  | none => rw [transferDone_of_absent found]
  | some state =>
      cases direction : state.direction with
      | input =>
          rw [transferDone_of_input found direction]
          exact motorCount_received link target state capture
      | output =>
          rw [transferDone_of_output found direction]
          rcases Bool.eq_false_or_eq_true link.telemetry with speaking | silent
          · simp [sent_of_speaking speaking, flipWhere, motorCount]
          · rw [sent_of_silent silent]

end TransferDone

/-- What an operation does: the link after it and the calls that it makes. -/
inductive Effect (link : Link) : Op → Link → List Call → Prop
  | beginFrame : Effect link .beginFrame link.beginFrame.1 link.beginFrame.2
  | writeAbsent {motor : Nat} (throttle : UInt16) (absent : link.motor? motor = none) :
      Effect link (.write motor throttle) link []
  | write {motor : Nat} {state : MotorState} (throttle : UInt16)
      (found : link.motor? motor = some state) :
      Effect link (.write motor throttle) (link.staged motor throttle state.channel)
        (if link.burst then [] else [.load state.channel (link.wordsFor motor throttle)])
  | endHeld {commands : Queue} (held : link.commands.tick = (false, commands)) :
      Effect link .endFrame { link with commands } []
  | endReleased {commands : Queue} (released : link.commands.tick = (true, commands)) :
      Effect link .endFrame (fire { link with commands }).1 (fire { link with commands }).2
  | transferDone (motor : Nat) (capture : Capture) :
      Effect link (.transferDone motor capture) (link.transferDone motor capture).1
        (link.transferDone motor capture).2
  | send (target : Target) (command : Command) :
      Effect link (.send target command)
        { link with commands := (link.commands.enqueue target command).2 } []

theorem effect_of_step {op : Op} {calls : List Call} (step : link.step op = .ok (next, calls)) :
    link.Effect op next calls := by
  cases op with
  | beginFrame =>
      obtain ⟨rfl, rfl⟩ := Prod.mk.inj (Except.ok.inj step)
      exact .beginFrame
  | write motor throttle =>
      cases found : link.motor? motor with
      | none =>
          rw [Link.step, write_of_absent found] at step
          cases step
          exact .writeAbsent throttle found
      | some state =>
          have inRange (burst : link.burst = true) :
              state.channel.index.toNat ≤ TimerState.burstCapacity := by
            by_contra beyond
            simp [Link.step, write, found, burst, Nat.lt_of_not_le beyond] at step
          rw [Link.step, write_of_connected found inRange] at step
          cases step
          exact .write throttle found
  | endFrame =>
      have ended := Except.ok.inj step
      rcases ticked : link.commands.tick with ⟨released, commands⟩
      cases released with
      | false =>
          rw [endFrame_of_held ticked] at ended
          cases ended
          exact .endHeld ticked
      | true =>
          rw [endFrame_of_released ticked] at ended
          obtain ⟨rfl, rfl⟩ := Prod.mk.inj ended
          exact .endReleased ticked
  | transferDone motor capture =>
      obtain ⟨rfl, rfl⟩ := Prod.mk.inj (Except.ok.inj step)
      exact .transferDone motor capture
  | send target command =>
      cases step
      exact .send target command

theorem effect_endFrame (link : Link) :
    link.Effect .endFrame link.endFrame.1 link.endFrame.2 :=
  effect_of_step rfl

end Link

end Rotor

import Rotor.Proofs.Link.Connected
import Rotor.Proofs.Link.Staging
import Rotor.Proofs.Link.Views

/-!
# What is sent does not depend on what is received

A link listens on the wires on which it sends, and what it hears is noise now and then.
`Link.sendingView` is the part of a link that staging goes by: channels, values, timers and the
command queue. Completed transfers and the beginnings of frames leave it as it is and send nothing,
so a run may be stripped of all completed transfers, and what it sends stays the same.
-/

namespace Rotor

namespace Link

/-- Whether an operation is a completed transfer. -/
def Op.isTransfer : Op → Bool
  | .transferDone _ _ => true
  | _ => false

/-- What sending goes by: the channel of a motor and the value last written. -/
def sendingView : View where
  motor state := { MotorState.onChannel state.channel with value := state.value }
  counters _ := .zero

/-- What is shown of the outcome of a run: what sending goes by, and the calls that load or start. -/
def sendingPart (outcome : Link × List Call) : Link × List Call :=
  (sendingView.of outcome.1, outcome.2.filter Call.sends)

/-- Two outcomes of a run in which the same was sent. What was written last is the same too, and so
are the commands that wait and the answers to the next ones. -/
structure SameSending (one other : Link × List Call) : Prop where
  calls_eq : one.2.filter Call.sends = other.2.filter Call.sends
  valueOf_eq : ∀ motor, one.1.valueOf motor = other.1.valueOf motor
  hasCommand_eq : one.1.hasCommand = other.1.hasCommand
  send_eq : ∀ target command, (one.1.send target command).1 = (other.1.send target command).1

variable {link left right : Link} {op : Op} {ops : List Op}

section Steps

theorem faithful_sendingView : sendingView.Faithful :=
  ⟨fun _ => rfl, fun _ => rfl, fun _ _ => rfl, fun _ _ => rfl, fun _ => rfl⟩

theorem sendingView_beginFrame (link : Link) :
    sendingView.of link.beginFrame.1 = sendingView.of link := by
  rcases Bool.eq_false_or_eq_true link.telemetry with speaking | silent
  · refine View.of_eq_of_motor? ?_ ?_ ?_ rfl
    · simp [beginFrame, speaking, surroundings]
    · simp [beginFrame, speaking, motorCount]
    · intro motor
      rw [motor?_beginFrame speaking, Option.map_map]
      rfl
  · rw [beginFrame_of_silent silent]

theorem sendingView_transferDone (link : Link) (target : Nat) (capture : Capture) :
    sendingView.of (link.transferDone target capture).1 = sendingView.of link :=
  View.of_eq_of_motor? (surroundings_transferDone link target capture)
    (motorCount_transferDone link target capture)
    (map_motor?_transferDone sendingView.motor (fun _ => rfl) (fun _ _ => rfl) link target capture)
    rfl

theorem filter_sends_of_quiet {calls : List Call} (quiet : ∀ call ∈ calls, call.sends = false) :
    calls.filter Call.sends = [] := by
  rw [List.filter_eq_nil_iff]
  intro call callMem
  simp [quiet call callMem]

/-- What is shown of an operation that is no completed transfer depends on what sending goes by. -/
theorem sendingPart_step (same : sendingView.of left = sendingView.of right)
    (common : op.isTransfer = false) :
    Alike (fun one other => sendingPart one = sendingPart other) (left.step op) (right.step op) := by
  have staged (stages : (∃ motor throttle, op = .write motor throttle) ∨ op = .endFrame ∨
      ∃ target command, op = .send target command) :
      Alike (fun one other => sendingPart one = sendingPart other) (left.step op)
        (right.step op) := by
    apply (Alike.iff_map_eq.mpr (faithful_sendingView.staging same stages)).imp
    intro one other shown
    exact congrArg (fun outcome => (outcome.1, outcome.2.filter Call.sends)) shown
  cases op with
  | beginFrame =>
      refine .done (Prod.ext ?_ ?_)
      · exact (sendingView_beginFrame left).trans (same.trans (sendingView_beginFrame right).symm)
      · exact (filter_sends_of_quiet (quiet_beginFrame left)).trans
          (filter_sends_of_quiet (quiet_beginFrame right)).symm
  | write motor throttle => exact staged (.inl ⟨motor, throttle, rfl⟩)
  | endFrame => exact staged (.inr (.inl rfl))
  | transferDone motor capture => cases common
  | send target command => exact staged (.inr (.inr ⟨target, command, rfl⟩))

end Steps

section Runs

/-- Without its completed transfers a run sends the same. -/
theorem sendingPart_run (same : sendingView.of left = sendingView.of right) (ops : List Op) :
    Alike (fun one other => sendingPart one = sendingPart other)
      (left.run ops) (right.run (ops.filter fun op => !op.isTransfer)) := by
  induction ops generalizing left right with
  | nil => exact .done (congrArg (·, []) same)
  | cons op rest ih =>
      cases transfers : op.isTransfer with
      | true =>
          cases op with
          | transferDone motor capture =>
              have stripped := ih ((sendingView_transferDone left motor capture).trans same)
              rw [List.filter_cons_of_neg (by simp [transfers]), ← bind_pure (right.run _)]
              simp only [run, step]
              apply stripped.bind
              intro _ _ shown
              have sameView := congrArg Prod.fst shown
              refine .done (Prod.ext sameView ?_)
              have quiet := filter_sends_of_quiet (quiet_transferDone left motor capture)
              simpa [sendingPart, quiet] using congrArg Prod.snd shown
          | _ => cases transfers
      | false =>
          rw [List.filter_cons_of_pos (by simp [transfers])]
          simp only [run]
          apply (sendingPart_step same transfers).bind
          intro _ _ shownFirst
          apply (ih (congrArg Prod.fst shownFirst)).bind
          intro _ _ shownLater
          have sameView := congrArg Prod.fst shownLater
          refine .done (Prod.ext sameView ?_)
          simpa [sendingPart] using
            congrArg₂ (· ++ ·) (congrArg Prod.snd shownFirst) (congrArg Prod.snd shownLater)

theorem sameSending_of_sendingPart {one other : Link × List Call}
    (same : sendingPart one = sendingPart other) : SameSending one other := by
  have commands : one.1.commands = other.1.commands :=
    congrArg (fun outcome => outcome.1.commands) same
  refine ⟨congrArg Prod.snd same, ?_, congrArg Queue.isBusy commands, ?_⟩
  · intro motor
    have motors := View.map_motor?_of_same (congrArg Prod.fst same) motor
    simpa [valueOf, sendingView, Function.comp_def] using
      congrArg (Option.map MotorState.value) motors
  · intro target command
    exact congrArg (fun queue : Queue => (queue.enqueue target command).1) commands

end Runs

/-- Two runs of a link in which the same is asked of it send the same, whatever transfers complete in
the one and in the other, and with whatever captures. They load and start the same in the same
order, and fail alike if they do; after them the values last written agree, commands wait in both or
in none, and the next command is accepted by both or by none. Since this holds of all runs, it holds
after every operation that both have in common. -/
theorem sending_ignores_reception (link : Link) {ops others : List Op}
    (common : ops.filter (fun op => !op.isTransfer) = others.filter fun op => !op.isTransfer) :
    Alike SameSending (link.run ops) (link.run others) := by
  have stripped (run : List Op) : (link.run run).map sendingPart =
      (link.run (run.filter fun op => !op.isTransfer)).map sendingPart :=
    Alike.iff_map_eq.mp (sendingPart_run rfl run)
  have same : (link.run ops).map sendingPart = (link.run others).map sendingPart := by
    rw [stripped ops, common, stripped others]
  apply (Alike.iff_map_eq.mpr same).imp
  intro _ _ shown
  exact sameSending_of_sendingPart shown

/-- Two frames with a command between them, once with a valid and a broken reply and once without
any completed transfer. -/
theorem sending_ignores_reception_of_replies :
    ∃ link init, connect { motorCount := 2 } {} (Bench.inOrder []).answer = .ok (link, init) ∧
      Alike SameSending
        (link.run (frameOps 2 (fun _ => 100) ++ [.transferDone 0 .nothing,
          .transferDone 0 (.ofWords [7]), .send .all (.beacon1), .transferDone 1 .nothing,
          .transferDone 1 (.ofWords (Protocol.dshot600.encoding.edges (Packet.reply 291 0) 7))] ++
            frameOps 2 (fun _ => 200)))
        (link.run (frameOps 2 (fun _ => 100) ++ [.send .all (.beacon1)] ++
          frameOps 2 (fun _ => 200))) := by
  have fits : Timing.Fits {} := by decide
  rcases exists_initial fits { motorCount := 2 } (Bench.inOrder []).answer with
    ⟨link, init, connected, _⟩
  exact ⟨link, init, connected, sending_ignores_reception link (by decide)⟩

end Link

end Rotor

import Rotor.Proofs.Link.Exchange

/-!
# What two modes have in common

`Link.core` is what a link holds apart from the way it stages frames. Whether a link serves each
channel by itself or a timer with one burst, its operations do the same to the core. The end of a
frame does so because every motor was staged before, and the completion of the transfers because all
motors have been turned by then.
-/

namespace Rotor

namespace Link

/-- What a link holds apart from the way it stages frames. -/
def core (link : Link) : Link :=
  { link with burst := false, timers := [] }

/-- The link after all its motors were started: with telemetry each of them owes a reply. -/
def allStarted (link : Link) : Link :=
  { link with
    motors := link.motors.map (Option.map fun state =>
      { state with owesReply := state.owesReply || link.telemetry }) }

variable {link : Link}

theorem core_beginFrame (link : Link) : link.beginFrame.1.core = link.core.beginFrame.1 := by
  rcases Bool.eq_false_or_eq_true link.telemetry with speaking | silent
  · simp [beginFrame, core, speaking]
  · have coreSilent : link.core.telemetry = false := silent
    rw [beginFrame_of_silent silent, beginFrame_of_silent coreSilent]

theorem core_staged (link : Link) (motor : Nat) (throttle : UInt16) (channel : Channel) :
    (link.staged motor throttle channel).core =
      link.core.updateMotor motor fun state =>
        { state with value := link.core.valueFor motor throttle } :=
  rfl

theorem motor?_allStarted (link : Link) (motor : Nat) :
    link.allStarted.motor? motor = (link.motor? motor).map fun state =>
      { state with owesReply := state.owesReply || link.telemetry } :=
  motor?_of_map _ rfl motor

theorem core_fire (due : ∀ motor state, link.motor? motor = some state →
    link.isDue state.channel = true) : link.fire.1.core = link.core.allStarted := by
  refine eq_of_motor? rfl (by simp [fire, core, allStarted, motorCount]) ?_ rfl
  intro motor
  refine (motor?_fire link motor).trans ((motor?_allStarted link.core motor).trans ?_).symm
  have sameMotor : link.core.motor? motor = link.motor? motor := rfl
  rw [sameMotor]
  cases found : link.motor? motor with
  | none => rfl
  | some state => simp [due motor state found, core]

theorem core_receive (link : Link) (motor : Nat) (reply : Option Capture) :
    (link.receive motor reply).core = link.core.receive motor reply := by
  have sameMotor : link.core.motor? motor = link.motor? motor := rfl
  unfold receive
  rw [sameMotor]
  cases link.motor? motor with
  | none => rfl
  | some state =>
      cases reply with
      | none => rfl
      | some capture =>
          dsimp only
          by_cases empty : state.mailbox.phase = .empty
          · rw [received_of_empty empty, received_of_empty empty]
            rfl
          · rw [received_of_taken empty, received_of_taken empty]

theorem core_transferDone_of_silent (silent : link.telemetry = false) (motor : Nat)
    (capture : Capture) :
    (link.transferDone motor capture).1.core = (link.core.transferDone motor capture).1 := by
  have coreSilent : link.core.telemetry = false := silent
  cases found : link.motor? motor with
  | none =>
      have coreFound : link.core.motor? motor = none := found
      rw [transferDone_of_absent found, transferDone_of_absent coreFound]
  | some state =>
      have coreFound : link.core.motor? motor = some state := found
      cases direction : state.direction with
      | input =>
          rw [transferDone_of_input found direction, transferDone_of_input coreFound direction]
          dsimp only
          rw [← receive_some found, ← receive_some coreFound]
          exact core_receive link motor (some capture)
      | output =>
          rw [transferDone_of_output found direction, transferDone_of_output coreFound direction,
            sent_of_silent silent, sent_of_silent coreSilent]

theorem core_finishSending_of_silent (silent : link.telemetry = false) (motor : Nat) :
    (link.finishSending motor).core = link.core.finishSending motor := by
  have sameDirection : link.core.direction motor = link.direction motor := rfl
  unfold finishSending
  rw [sameDirection]
  split
  · exact core_transferDone_of_silent silent motor .nothing
  · rfl

theorem core_completeMotor_of_silent (silent : link.telemetry = false) (motor : Nat)
    (reply : Option Capture) :
    (link.completeMotor motor reply).1.core = (link.core.completeMotor motor reply).1 := by
  have finished := core_finishSending_of_silent silent motor
  rw [completeMotor_fst, completeMotor_fst, ← finished]
  cases reply with
  | none => rfl
  | some capture =>
      have stillSilent : (link.finishSending motor).telemetry = false :=
        (congrArg Link.telemetry (surroundings_finishSending link motor)).trans silent
      exact core_transferDone_of_silent stillSilent motor capture

theorem core_foldl_receive (replies : Nat → Option Capture) (motors : List Nat) :
    (motors.foldl (fun mid motor => mid.receive motor (replies motor)) link).core =
      motors.foldl (fun mid motor => mid.receive motor (replies motor)) link.core := by
  induction motors generalizing link with
  | nil => rfl
  | cons motor rest ih => rw [List.foldl_cons, List.foldl_cons, ih, core_receive]

/-- How a link stages frames makes no difference to what is left of them. -/
theorem core_completeMotors {motors : List Nat} (replies : Nat → Option Capture)
    (outside : ∀ motor, motor ∉ motors → link.direction motor ≠ some .output) :
    (link.completeMotors replies motors).1.core = (link.core.completeMotors replies motors).1 := by
  rcases Bool.eq_false_or_eq_true link.telemetry with speaking | silent
  · have coreSpeaking : link.core.telemetry = true := speaking
    rw [completeMotors_eq_foldl speaking outside, completeMotors_eq_foldl coreSpeaking outside]
    exact core_foldl_receive replies motors
  · clear outside
    induction motors generalizing link with
    | nil => rfl
    | cons motor rest ih =>
        have completed := core_completeMotor_of_silent silent motor (replies motor)
        have stillSilent : (link.completeMotor motor (replies motor)).1.telemetry = false :=
          (telemetry_completeMotor link motor _).trans silent
        rw [completeMotors_cons, completeMotors_cons, ← completed]
        exact ih stillSilent

end Link

end Rotor

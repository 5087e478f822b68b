import Mathlib.Data.List.Induction
import Mathlib.Data.List.Count
import Rotor.Proofs.Link.Wiring

/-!
# Completing the transfers of a frame

After a frame the motors are turned to input: one by one as they finish sending, or with bursts a
whole timer at the first of them. `Link.completeMotors_eq_foldl` says that this makes no difference
once all motors are through. The link is then as if every channel had been turned first, and the
replies had been received afterwards.
-/

namespace Rotor

namespace Link

variable {link : Link} {motor target : Nat} {state : MotorState} {reply : Option Capture}

section Counting

/-- What a link holds apart from its motors and counters. -/
def surroundings (link : Link) : Link :=
  { link with motors := [], counters := .zero }

/-- Two links are the same if they know the same of every motor and agree in everything else. -/
theorem eq_of_motor? {left right : Link} (surroundings : left.surroundings = right.surroundings)
    (motorCount : left.motorCount = right.motorCount)
    (motors : ∀ motor, left.motor? motor = right.motor? motor)
    (counters : left.counters = right.counters) : left = right := by
  have sameMotors : left.motors = right.motors := by
    apply List.ext_getElem motorCount
    intro motor inLeft inRight
    simpa [motor?, inLeft, inRight] using motors motor
  cases left
  cases right
  simp_all [Link.surroundings]

@[simp]
theorem surroundings_flipWhere (link : Link) (chosen : Nat → MotorState → Bool) :
    (link.flipWhere chosen).1.surroundings = link.surroundings :=
  rfl

@[simp]
theorem surroundings_received (link : Link) (target : Nat) (state : MotorState)
    (capture : Capture) :
    (link.received target state capture).1.surroundings = link.surroundings := by
  rw [received_fst]
  rfl

/-- The number of the chosen motors that are at output. -/
def flipCount (link : Link) (chosen : Nat → MotorState → Bool) : Nat :=
  (List.range link.motorCount).countP fun motor =>
    (link.motor? motor).any fun state => chosen motor state && state.direction == .output

theorem length_filterMap_zipIdx (motors : List (Option MotorState))
    (chosen : Nat → MotorState → Bool) :
    (motors.zipIdx.filterMap fun entry => entry.1.filter (chosen entry.2)).length =
      (List.range motors.length).countP fun motor => motors[motor]?.join.any (chosen motor) := by
  induction motors using List.reverseRecOn with
  | nil => rfl
  | append_singleton front last ih =>
      have earlier : (List.range front.length).countP
          (fun motor => (front ++ [last])[motor]?.join.any (chosen motor)) =
            (List.range front.length).countP fun motor =>
              front[motor]?.join.any (chosen motor) := by
        apply List.countP_congr
        intro motor inFront
        rw [List.getElem?_append_left (List.mem_range.mp inFront)]
      rw [List.zipIdx_append, List.filterMap_append, List.length_append, ih, List.length_append,
        List.length_singleton, List.range_succ, List.countP_append, earlier]
      congr 1
      cases last with
      | none => simp
      | some state =>
          cases chosenLast : chosen front.length state <;>
            simp [Option.filter, chosenLast]

theorem counters_flipWhere (link : Link) (chosen : Nat → MotorState → Bool) :
    (link.flipWhere chosen).1.counters =
      { link.counters with
        flips := link.counters.flips + UInt32.ofNat (link.flipCount chosen) } := by
  have length := length_filterMap_zipIdx link.motors fun motor state =>
    chosen motor state && state.direction == .output
  exact congrArg (fun number : Nat =>
    { link.counters with flips := link.counters.flips + UInt32.ofNat number }) length

theorem countP_eq_add {α : Type} {first second third : α → Bool} {items : List α}
    (split : ∀ item ∈ items,
      (first item).toNat = (second item).toNat + (third item).toNat) :
    items.countP first = items.countP second + items.countP third := by
  induction items with
  | nil => rfl
  | cons item rest ih =>
      rw [List.forall_mem_cons] at split
      rcases split with ⟨head, tail⟩
      have one (flag : Bool) : (if flag = true then 1 else 0) = flag.toNat := by
        cases flag <;> rfl
      simp only [List.countP_cons, one, ih tail]
      omega

end Counting

section Turning

/-- The link with every channel turned to input. -/
def flipAll (link : Link) : Link :=
  (link.flipWhere fun _ _ => true).1

theorem motor?_flipAll (link : Link) (motor : Nat) :
    link.flipAll.motor? motor = (link.motor? motor).map fun state =>
      if state.direction = .output then state.flip else state := by
  rw [flipAll, motor?_flipWhere]
  simp

@[simp]
theorem motorCount_flipWhere (link : Link) (chosen : Nat → MotorState → Bool) :
    (link.flipWhere chosen).1.motorCount = link.motorCount := by
  simp [flipWhere, motorCount]

/-- Channels that have been turned before make no difference. -/
theorem flipAll_flipWhere (link : Link) (chosen : Nat → MotorState → Bool) :
    (link.flipWhere chosen).1.flipAll = link.flipAll := by
  refine eq_of_motor? rfl (by simp [flipAll]) ?_ ?_
  · intro motor
    rw [motor?_flipAll, motor?_flipAll, motor?_flipWhere, Option.map_map]
    congr 1
    funext state
    cases direction : state.direction <;> cases chosenOne : chosen motor state <;>
      simp [MotorState.flip, direction, chosenOne]
  · have counted : link.flipCount (fun _ _ => true) =
        link.flipCount chosen + (link.flipWhere chosen).1.flipCount (fun _ _ => true) := by
      unfold flipCount
      rw [motorCount_flipWhere]
      apply countP_eq_add
      intro motor _
      rw [motor?_flipWhere]
      cases link.motor? motor with
      | none => rfl
      | some state =>
          cases direction : state.direction <;> cases chosenOne : chosen motor state <;>
            simp [MotorState.flip, direction, chosenOne]
    simp only [flipAll, counters_flipWhere, counted, UInt32.ofNat_add, UInt32.add_assoc]

end Turning

section Receiving

/-- The link after a motor that listens has been given a reply, if it has been given one. -/
def receive (link : Link) (motor : Nat) (reply : Option Capture) : Link :=
  match link.motor? motor, reply with
  | some state, some capture => (link.received motor state capture).1
  | _, _ => link

theorem receive_none (link : Link) (motor : Nat) : link.receive motor none = link := by
  unfold receive
  split <;> simp_all

theorem receive_of_absent (absent : link.motor? motor = none) (reply : Option Capture) :
    link.receive motor reply = link := by
  simp [receive, absent]

theorem receive_some (found : link.motor? motor = some state) (capture : Capture) :
    link.receive motor (some capture) = (link.received motor state capture).1 := by
  simp [receive, found]

theorem flipCount_congr {left right : Link} (motorCount : left.motorCount = right.motorCount)
    (directions : ∀ motor, left.direction motor = right.direction motor) :
    left.flipCount (fun _ _ => true) = right.flipCount fun _ _ => true := by
  unfold flipCount
  rw [motorCount]
  congr 1
  funext motor
  have same := directions motor
  unfold direction at same
  cases inLeft : left.motor? motor <;> cases inRight : right.motor? motor <;>
    simp_all

theorem direction_receive (link : Link) (target : Nat) (reply : Option Capture) (motor : Nat) :
    (link.receive target reply).direction motor = link.direction motor := by
  cases found : link.motor? target with
  | none => rw [receive_of_absent found]
  | some state =>
      cases reply with
      | none => rw [receive_none]
      | some capture =>
          rw [receive_some found]
          exact direction_received found capture motor

/-- A reply is received in the same way before and after the other channels are turned. -/
theorem flipAll_receive (link : Link) (target : Nat) (reply : Option Capture) :
    (link.receive target reply).flipAll = link.flipAll.receive target reply := by
  cases found : link.motor? target with
  | none =>
      have stillAbsent : link.flipAll.motor? target = none := by
        rw [motor?_flipAll, found]
        rfl
      rw [receive_of_absent found, receive_of_absent stillAbsent]
  | some state =>
      cases reply with
      | none => rw [receive_none, receive_none]
      | some capture =>
          have turned : link.flipAll.motor? target =
              some (if state.direction = .output then state.flip else state) := by
            rw [motor?_flipAll, found]
            rfl
          have sameMailbox : (if state.direction = .output then state.flip else state).mailbox =
              state.mailbox := by
            split <;> rfl
          have counted : (link.received target state capture).1.flipCount (fun _ _ => true) =
              link.flipCount fun _ _ => true :=
            flipCount_congr (motorCount_received link target state capture)
              (direction_received found capture)
          rw [receive_some found, receive_some turned]
          refine eq_of_motor? (by simp [flipAll]) (by simp [flipAll]) ?_ ?_
          · intro motor
            rw [motor?_flipAll, motor?_received found, motor?_received turned, motor?_flipAll]
            split
            · cases direction : state.direction <;> simp [MotorState.flip, direction] <;> rfl
            · rfl
          · rw [flipAll, counters_flipWhere, counted, received_fst, received_fst link.flipAll,
              sameMailbox, flipAll, counters_flipWhere]

end Receiving

section Completing

/-- The link after a motor has finished sending, where its channel is at output. -/
def finishSending (link : Link) (motor : Nat) : Link :=
  if link.direction motor = some .output then (link.transferDone motor .nothing).1 else link

theorem completeMotor_fst (link : Link) (motor : Nat) (reply : Option Capture) :
    (link.completeMotor motor reply).1 =
      match reply with
      | some capture => ((link.finishSending motor).transferDone motor capture).1
      | none => link.finishSending motor := by
  unfold completeMotor finishSending
  by_cases drives : link.direction motor = some .output <;> cases reply <;> simp [drives]

theorem finishSending_of_output (speaking : link.telemetry = true)
    (found : link.motor? motor = some state) (drives : state.direction = .output) :
    link.finishSending motor = (link.flipWhere (link.sharesStop motor state)).1 := by
  have atOutput : link.direction motor = some .output := by
    simp [direction, found, drives]
  rw [finishSending, if_pos atOutput, transferDone_of_output found drives,
    sent_of_speaking speaking]

theorem finishSending_of_not_output (listens : link.direction motor ≠ some .output) :
    link.finishSending motor = link :=
  if_neg listens

/-- A motor that has finished sending listens, and one that listened before still does. -/
theorem direction_finishSending (speaking : link.telemetry = true) {other : Nat}
    (heard : other = motor ∨ link.direction other ≠ some .output) :
    (link.finishSending motor).direction other ≠ some .output := by
  by_cases drives : link.direction motor = some .output
  · rcases Option.map_eq_some_iff.mp drives with ⟨state, found, atOutput⟩
    have shares : link.sharesStop motor state motor state = true := by
      simp [sharesStop]
    rw [finishSending_of_output speaking found atOutput]
    unfold direction
    rw [motor?_flipWhere, Option.map_map]
    rcases heard with rfl | listens
    · simp [found, shares, atOutput, MotorState.flip]
    · cases otherFound : link.motor? other with
      | none => simp
      | some otherState =>
          have otherListens : otherState.direction ≠ .output := by
            simpa [direction, otherFound] using listens
          simp [otherListens]
  · rw [finishSending_of_not_output drives]
    rcases heard with rfl | listens
    · exact drives
    · exact listens

theorem flipAll_finishSending (speaking : link.telemetry = true) (motor : Nat) :
    (link.finishSending motor).flipAll = link.flipAll := by
  by_cases drives : link.direction motor = some .output
  · rcases Option.map_eq_some_iff.mp drives with ⟨state, found, atOutput⟩
    rw [finishSending_of_output speaking found atOutput]
    exact flipAll_flipWhere link _
  · rw [finishSending_of_not_output drives]

theorem transferDone_of_listening (listens : link.direction motor ≠ some .output)
    (capture : Capture) :
    (link.transferDone motor capture).1 = link.receive motor (some capture) := by
  cases found : link.motor? motor with
  | none => rw [receive_of_absent found, transferDone_of_absent found]
  | some state =>
      cases direction : state.direction with
      | input => rw [receive_some found, transferDone_of_input found direction]
      | output => exact absurd (by simp [Link.direction, found, direction]) listens

/-- A motor of a speaking link finishes sending and then receives its reply. -/
theorem completeMotor_of_speaking (speaking : link.telemetry = true) (motor : Nat)
    (reply : Option Capture) :
    (link.completeMotor motor reply).1 = (link.finishSending motor).receive motor reply := by
  rw [completeMotor_fst]
  cases reply with
  | none => rw [receive_none]
  | some capture =>
      exact transferDone_of_listening (direction_finishSending speaking (.inl rfl)) capture

theorem surroundings_transferDone (link : Link) (motor : Nat) (capture : Capture) :
    (link.transferDone motor capture).1.surroundings = link.surroundings := by
  rw [transferDone_fst]
  rfl

theorem surroundings_finishSending (link : Link) (motor : Nat) :
    (link.finishSending motor).surroundings = link.surroundings := by
  unfold finishSending
  split
  · exact surroundings_transferDone link motor .nothing
  · rfl

theorem surroundings_completeMotor (link : Link) (motor : Nat) (reply : Option Capture) :
    (link.completeMotor motor reply).1.surroundings = link.surroundings := by
  rw [completeMotor_fst]
  cases reply with
  | none => exact surroundings_finishSending link motor
  | some capture =>
      exact (surroundings_transferDone _ motor capture).trans
        (surroundings_finishSending link motor)

theorem telemetry_completeMotor (link : Link) (motor : Nat) (reply : Option Capture) :
    (link.completeMotor motor reply).1.telemetry = link.telemetry :=
  congrArg (·.telemetry) (surroundings_completeMotor link motor reply)

theorem completeMotors_cons (link : Link) (replies : Nat → Option Capture) (motor : Nat)
    (rest : List Nat) :
    (link.completeMotors replies (motor :: rest)).1 =
      ((link.completeMotor motor (replies motor)).1.completeMotors replies rest).1 :=
  rfl

/-- Completing the transfers of motors one by one is the same as turning every channel to input
first and receiving the replies afterwards, as soon as all other motors listen already. -/
theorem completeMotors_eq_foldl {replies : Nat → Option Capture} {motors : List Nat}
    (speaking : link.telemetry = true)
    (listening : ∀ motor, motor ∉ motors → link.direction motor ≠ some .output) :
    (link.completeMotors replies motors).1 =
      motors.foldl (fun mid motor => mid.receive motor (replies motor)) link.flipAll := by
  induction motors generalizing link with
  | nil =>
      have unturned (motor : Nat) : link.flipAll.motor? motor = link.motor? motor := by
        have listens := listening motor (by simp)
        rw [motor?_flipAll]
        cases found : link.motor? motor with
        | none => rfl
        | some state =>
            have direction : state.direction ≠ .output := by
              simpa [Link.direction, found] using listens
            simp [direction]
      have none : link.flipCount (fun _ _ => true) = 0 := by
        apply List.countP_eq_zero.mpr
        intro motor _
        have listens := listening motor (by simp)
        cases found : link.motor? motor with
        | none => simp
        | some state =>
            have direction : state.direction ≠ .output := by
              simpa [Link.direction, found] using listens
            simp [direction]
      refine eq_of_motor? rfl (by simp [flipAll, completeMotors]) ?_ ?_
      · intro motor
        exact (unturned motor).symm
      · rw [List.foldl_nil, flipAll, counters_flipWhere, none]
        simp [completeMotors]
  | cons motor rest ih =>
      have turned := completeMotor_of_speaking speaking motor (replies motor)
      have stillSpeaking : (link.completeMotor motor (replies motor)).1.telemetry = true :=
        (telemetry_completeMotor link motor _).trans speaking
      have stillListening (other : Nat) (done : other ∉ rest) :
          (link.completeMotor motor (replies motor)).1.direction other ≠ some .output := by
        rw [turned, direction_receive]
        apply direction_finishSending speaking
        by_cases same : other = motor
        · exact Or.inl same
        · exact Or.inr (listening other (by simp [same, done]))
      rw [completeMotors_cons, ih stillSpeaking stillListening, turned, flipAll_receive,
        flipAll_finishSending speaking, List.foldl_cons]

end Completing

end Link

end Rotor

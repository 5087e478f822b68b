import Mathlib.Data.List.DropRight
import Rotor.Proofs.Link.Staging

/-!
# The ledger of a link

Every beginning of a frame settles with every motor: the starts of its channel since the frame
before stand against the reply that is found. `Link.ledger` keeps these settlements in the course of
a run, beside the calls that wait for the next one. At most one start waits for each channel as long
as every frame begins before it ends (`Link.Paced`).
-/

namespace Rotor

namespace Reply

/-- Whether a reply carries a payload. -/
def isValid : Reply → Bool
  | .valid _ => true
  | _ => false

/-- Whether a reply is a capture whose checksum fails. -/
def isDamaged : Reply → Bool
  | .damaged _ => true
  | _ => false

/-- Whether there is no capture. -/
def isMissing : Reply → Bool
  | .missing _ => true
  | _ => false

/-- Whether there is no capture although one was due. -/
def isOverdue : Reply → Bool
  | .missing overdue => overdue
  | _ => false

theorem valid_or_damaged_or_missing (reply : Reply) :
    reply.isValid = true ∨ reply.isDamaged = true ∨ reply.isMissing = true := by
  cases reply <;> simp [isValid, isDamaged, isMissing]

end Reply

/-- What the beginning of a frame settles with a motor. -/
structure Settlement where
  motor : Nat
  /-- How often the channel of the motor was started since the frame before began. -/
  starts : Nat
  /-- What was found for the motor. -/
  reply : Reply
  deriving DecidableEq, Repr, Inhabited

/-- The accounts of a run. -/
structure Ledger where
  /-- The calls since the last frame began. -/
  recent : List Call
  /-- The settlements of all frames that began. -/
  settled : List Settlement
  deriving DecidableEq, Repr, Inhabited

/-- The ledger of a run that has not started. -/
def Ledger.empty : Ledger where
  recent := []
  settled := []

/-- The settlements with one motor. -/
def Ledger.settledWith (ledger : Ledger) (motor : Nat) : List Settlement :=
  ledger.settled.filter fun settlement => settlement.motor = motor

/-- What the beginning of a frame settles with a motor when the given calls were made since the last
one. -/
def MotorState.settlement (state : MotorState) (encoding : Encoding) (recent : List Call)
    (motor : Nat) : Settlement where
  motor
  starts := recent.countP (Call.startsChannel state.channel)
  reply := state.reply encoding

namespace Link

variable {link next last : Link} {op : Op} {ops : List Op} {calls made recent : List Call}
  {motor : Nat} {state : MotorState}

/-- What the beginning of a frame settles when the given calls were made since the last one. -/
def settlements (link : Link) (recent : List Call) : List Settlement :=
  (List.range link.motorCount).filterMap fun motor =>
    (link.motor? motor).map fun state => state.settlement link.encoding recent motor

/-- The ledger after an operation that makes the given calls. -/
def note (link : Link) (ledger : Ledger) (made : List Call) : Op → Ledger
  | .beginFrame =>
    { recent := [], settled := ledger.settled ++ link.settlements ledger.recent }
  | _ => { ledger with recent := ledger.recent ++ made }

/-- The ledger after operations, from an earlier ledger on. -/
def ledgerFrom (link : Link) (ledger : Ledger) : List Op → Ledger
  | [] => ledger
  | op :: rest =>
    match link.step op with
    | .ok (next, made) => next.ledgerFrom (link.note ledger made op) rest
    | .error _ => ledger

/-- The ledger of a run. -/
def ledger (link : Link) (ops : List Op) : Ledger :=
  link.ledgerFrom .empty ops

/-- Every frame that ends has begun since the frame before ended. -/
def Paced (ops : List Op) : Prop :=
  ∀ ended < ops.length, ops[ended]? = some .endFrame →
    .beginFrame ∈ (ops.take ended).rtakeWhile (· ≠ .endFrame)

instance (ops : List Op) : Decidable (Paced ops) :=
  inferInstanceAs (Decidable (∀ ended < ops.length, ops[ended]? = some .endFrame →
    .beginFrame ∈ (ops.take ended).rtakeWhile (· ≠ .endFrame)))

section Notes

theorem note_of_ne {ledger : Ledger} (differ : op ≠ .beginFrame) :
    link.note ledger made op = { ledger with recent := ledger.recent ++ made } := by
  cases op with
  | beginFrame => exact absurd rfl differ
  | _ => rfl

theorem ledgerFrom_concat (run : link.run ops = .ok (last, calls))
    (step : last.step op = .ok (next, made)) (ledger : Ledger) :
    link.ledgerFrom ledger (ops ++ [op]) = last.note (link.ledgerFrom ledger ops) made op := by
  induction ops generalizing link calls ledger with
  | nil =>
      cases run
      simp [ledgerFrom, step]
  | cons first rest ih =>
      rcases run_cons_eq_ok_iff.mp run with ⟨mid, before, more, stepFirst, later, rfl⟩
      simp only [List.cons_append, ledgerFrom, stepFirst]
      exact ih later _

theorem ledger_concat (run : link.run ops = .ok (last, calls))
    (step : last.step op = .ok (next, made)) :
    link.ledger (ops ++ [op]) = last.note (link.ledger ops) made op :=
  ledgerFrom_concat run step .empty

theorem mem_settlements {settlement : Settlement} :
    settlement ∈ link.settlements recent ↔ ∃ motor state, link.motor? motor = some state ∧
      settlement = state.settlement link.encoding recent motor := by
  simp only [settlements, List.mem_filterMap, List.mem_range, Option.map_eq_some_iff]
  constructor
  · rintro ⟨motor, _, state, found, rfl⟩
    exact ⟨motor, state, found, rfl⟩
  · rintro ⟨motor, state, found, rfl⟩
    exact ⟨motor, lt_motorCount_of_motor? found, state, found, rfl⟩

/-- The beginning of a frame settles once with every motor that has a channel. -/
theorem settlements_with (found : link.motor? motor = some state) (recent : List Call) :
    (link.settlements recent).filter (fun settlement => settlement.motor = motor) =
      [state.settlement link.encoding recent motor] := by
  have isMotor := lt_motorCount_of_motor? found
  have selects : (fun other => ((link.motor? other).map fun state : MotorState =>
        state.settlement link.encoding recent other).filter
          fun settlement => settlement.motor = motor) =
      fun other => (Option.guard (· = motor) other).map fun _ =>
        state.settlement link.encoding recent motor := by
    funext other
    by_cases same : other = motor
    · subst same
      simp [found, MotorState.settlement]
    · cases link.motor? other <;>
        simp [same, MotorState.settlement, Option.guard, Option.filter_some]
  rw [settlements, List.filter_filterMap, selects, ← List.map_filterMap, List.filterMap_eq_filter,
    List.filter_eq, List.count_range, if_pos isMotor]
  rfl

end Notes

section Tallies

/-- The number of motors with a channel that are as chosen. -/
def tally (link : Link) (chosen : MotorState → Bool) : Nat :=
  (List.range link.motorCount).countP fun motor => (link.motor? motor).any chosen

/-- The number of motors whose mailbox holds a capture that waits. -/
def waiting (link : Link) : Nat :=
  link.tally fun state => state.mailbox.isFull

theorem tally_congr {left right : Link} {leftChosen rightChosen : MotorState → Bool}
    (motorCount : left.motorCount = right.motorCount)
    (same : ∀ motor, (left.motor? motor).any leftChosen = (right.motor? motor).any rightChosen) :
    left.tally leftChosen = right.tally rightChosen := by
  unfold tally
  rw [motorCount]
  apply List.countP_congr
  intro motor _
  rw [same]

theorem countP_settlements (link : Link) (recent : List Call) (found : Reply → Bool) :
    (link.settlements recent).countP (fun settlement => found settlement.reply) =
      link.tally fun state => found (state.reply link.encoding) := by
  rw [settlements, List.countP_filterMap]
  apply List.countP_congr
  intro motor _
  cases link.motor? motor <;> simp [MotorState.settlement]

theorem countP_any_eq_tally (link : Link) (chosen : MotorState → Bool) :
    link.motors.countP (fun state? => state?.any chosen) = link.tally chosen := by
  have motors : (List.range link.motorCount).map link.motor? = link.motors := by
    apply List.ext_getElem (by simp [motorCount])
    intro motor _ inRange
    simp [motor?, List.getElem?_eq_getElem inRange]
  calc link.motors.countP (fun state? => state?.any chosen)
      = ((List.range link.motorCount).map link.motor?).countP
          (fun state? => state?.any chosen) := by rw [motors]
    _ = link.tally chosen := List.countP_map ..

end Tallies

section Replies

theorem noteReply_counts (counters : Counters) (motor : Nat) (reply : Reply) :
    (counters.noteReply motor reply).captured = counters.captured ∧
      (counters.noteReply motor reply).damaged =
        counters.damaged + UInt32.ofNat (if reply.isDamaged then 1 else 0) ∧
      (counters.noteReply motor reply).missed =
        counters.missed + UInt32.ofNat (if reply.isOverdue then 1 else 0) := by
  cases reply with
  | valid payload => simp [Counters.noteReply, Reply.isDamaged, Reply.isOverdue]
  | damaged edges => simp [Counters.noteReply, Reply.isDamaged, Reply.isOverdue]
  | missing overdue =>
      cases overdue <;> simp [Counters.noteReply, Reply.isDamaged, Reply.isOverdue]

theorem noteReplies_counts (counters : Counters) (encoding : Encoding) (first : Nat)
    (motors : List (Option MotorState)) :
    (counters.noteReplies encoding first motors).captured = counters.captured ∧
      (counters.noteReplies encoding first motors).damaged = counters.damaged + UInt32.ofNat
        (motors.countP fun state? => state?.any fun state => (state.reply encoding).isDamaged) ∧
      (counters.noteReplies encoding first motors).missed = counters.missed + UInt32.ofNat
        (motors.countP fun state? => state?.any fun state => (state.reply encoding).isOverdue) := by
  induction motors generalizing counters first with
  | nil => simp [Counters.noteReplies]
  | cons state? rest ih =>
      cases state? with
      | none => simpa [Counters.noteReplies] using ih counters (first + 1)
      | some state =>
          rcases noteReply_counts counters first (state.reply encoding) with
            ⟨captured, damaged, missed⟩
          rcases ih (counters.noteReply first (state.reply encoding)) (first + 1) with
            ⟨restCaptured, restDamaged, restMissed⟩
          simp only [Counters.noteReplies, List.countP_cons, Option.any_some]
          refine ⟨restCaptured.trans captured, ?_, ?_⟩
          · rw [restDamaged, damaged, UInt32.add_assoc, ← UInt32.ofNat_add, Nat.add_comm]
          · rw [restMissed, missed, UInt32.add_assoc, ← UInt32.ofNat_add, Nat.add_comm]

/-- The beginning of a frame counts the replies that it finds damaged and those that are overdue. -/
theorem counters_beginFrame (speaking : link.telemetry = true) :
    link.beginFrame.1.counters.captured = link.counters.captured ∧
      link.beginFrame.1.counters.damaged = link.counters.damaged + UInt32.ofNat
        (link.tally fun state => (state.reply link.encoding).isDamaged) ∧
      link.beginFrame.1.counters.missed = link.counters.missed + UInt32.ofNat
        (link.tally fun state => (state.reply link.encoding).isOverdue) := by
  have counts := noteReplies_counts link.counters link.encoding 0 link.motors
  rw [countP_any_eq_tally, countP_any_eq_tally] at counts
  simpa [beginFrame, speaking] using counts

end Replies

section Starts

variable {channel : Channel}

/-- Starting the timers starts each channel at most once. -/
theorem countP_fire_le_one (nodup : link.wiring.timers.Nodup) (channel : Channel) :
    link.fire.2.countP (Call.startsChannel channel) ≤ 1 := by
  have onTimer : link.fire.2.countP (Call.startsChannel channel) ≤
      link.timers.countP fun entry => entry.timer == channel.timer := by
    rw [fire, List.countP_filterMap]
    apply List.countP_mono_left
    intro entry _ startsChannel
    cases starts : entry.startCall? link.burst with
    | none => simp [starts] at startsChannel
    | some call =>
        rw [starts, Option.map_some, Option.getD_some, startsChannel_of_startCall? starts,
          Bool.and_eq_true, decide_eq_true_eq] at startsChannel
        simpa using startsChannel.1
  have once : link.wiring.timers.count channel.timer ≤ 1 :=
    List.nodup_iff_count_le_one.mp nodup channel.timer
  calc link.fire.2.countP (Call.startsChannel channel)
      ≤ link.timers.countP fun entry => entry.timer == channel.timer := onTimer
    _ = (link.timers.map TimerState.timer).count channel.timer := by
          rw [List.count, List.countP_map]
          rfl
    _ ≤ 1 := once

theorem countP_of_quiet (quiet : ∀ call ∈ made, call.sends = false) (channel : Channel) :
    made.countP (Call.startsChannel channel) = 0 := by
  rw [List.countP_eq_zero]
  intro call callMem
  simp [Call.startsChannel_of_quiet (quiet call callMem)]

/-- Only the end of a frame starts channels, and each of them at most once. -/
theorem countP_effect_le (nodup : link.wiring.timers.Nodup) (effect : link.Effect op next made)
    (channel : Channel) :
    made.countP (Call.startsChannel channel) ≤ if op = .endFrame then 1 else 0 := by
  cases effect with
  | beginFrame => simp [countP_of_quiet (quiet_beginFrame link)]
  | writeAbsent throttle absent => simp
  | write throttle found =>
      rename_i target state
      have noStart : (if link.burst then [] else
          [Call.load state.channel (link.wordsFor target throttle)]).countP
            (Call.startsChannel channel) = 0 := by
        split <;> simp [Call.startsChannel]
      rw [noStart]
      exact Nat.zero_le _
  | endHeld held => simp
  | endReleased released =>
      rename_i commands
      have fired : link.wiring.timers = ({ link with commands } : Link).wiring.timers := rfl
      rw [if_pos rfl]
      exact countP_fire_le_one (fired ▸ nodup) channel
  | transferDone motor capture => simp [countP_of_quiet (quiet_transferDone link motor capture)]
  | send target command => simp

end Starts

section Pacing

/-- The number of frames that ended since the last one began. -/
def unsettled (ops : List Op) : Nat :=
  (ops.rtakeWhile (· ≠ .beginFrame)).count .endFrame

@[simp]
theorem unsettled_beginFrame (ops : List Op) : unsettled (ops ++ [.beginFrame]) = 0 := by
  simp [unsettled]

theorem unsettled_concat (differ : op ≠ .beginFrame) (ops : List Op) :
    unsettled (ops ++ [op]) = unsettled ops + if op = .endFrame then 1 else 0 := by
  rw [unsettled, List.rtakeWhile_concat_pos _ _ _ (by simpa using differ), List.count_append,
    List.count_singleton]
  simp [unsettled]

theorem paced_concat_iff : Paced (ops ++ [op]) ↔
    Paced ops ∧ (op = .endFrame → .beginFrame ∈ ops.rtakeWhile (· ≠ .endFrame)) := by
  have earlier {ended : Nat} (inFront : ended < ops.length) :
      (ops ++ [op])[ended]? = ops[ended]? ∧ (ops ++ [op]).take ended = ops.take ended :=
    ⟨List.getElem?_append_left inFront, List.take_append_of_le_length (Nat.le_of_lt inFront)⟩
  constructor
  · intro paced
    refine ⟨?_, ?_⟩
    · intro ended inFront ends
      have begins := paced ended (by simp; omega) ((earlier inFront).1.trans ends)
      rwa [(earlier inFront).2] at begins
    · rintro rfl
      simpa using paced ops.length (by simp) (by simp)
  · rintro ⟨paced, last⟩ ended inRange ends
    rcases Nat.lt_or_ge ended ops.length with inFront | atLast
    · rw [(earlier inFront).2]
      exact paced ended inFront ((earlier inFront).1.symm.trans ends)
    · obtain rfl : ended = ops.length := by
        simp only [List.length_append, List.length_singleton] at inRange
        omega
      have isLast : op = .endFrame := by simpa using ends
      simpa using last isLast

/-- Where a frame began since the last one ended, none ended since the last one began. -/
theorem unsettled_eq_zero (begins : .beginFrame ∈ ops.rtakeWhile (· ≠ .endFrame)) :
    unsettled ops = 0 := by
  -- From the end: whichever of the two operations comes first decides both sides.
  induction ops using List.reverseRecOn with
  | nil => rfl
  | append_singleton ops op ih =>
      by_cases beginOp : op = .beginFrame
      · rw [beginOp, unsettled_beginFrame]
      · by_cases endOp : op = .endFrame
        · simp [endOp] at begins
        · rw [List.rtakeWhile_concat_pos _ _ _ (by simpa using endOp), List.mem_append,
            List.mem_singleton] at begins
          rw [unsettled_concat beginOp, if_neg endOp]
          exact ih (begins.resolve_right fun same => beginOp same.symm)

/-- At most one frame of a paced run waits to be settled. -/
theorem unsettled_le_one (paced : Paced ops) : unsettled ops ≤ 1 := by
  induction ops using List.reverseRecOn with
  | nil => exact Nat.zero_le _
  | append_singleton ops op ih =>
      rcases paced_concat_iff.mp paced with ⟨earlier, last⟩
      by_cases beginOp : op = .beginFrame
      · rw [beginOp, unsettled_beginFrame]
        exact Nat.zero_le _
      · rw [unsettled_concat beginOp]
        split
        · next endOp => rw [unsettled_eq_zero (last endOp)]
        · exact ih earlier

/-- In a paced run no frame ends before the first one begins. -/
theorem endFrame_mem_imp (paced : Paced ops) (ends : .endFrame ∈ ops) : .beginFrame ∈ ops := by
  rcases List.getElem?_of_mem ends with ⟨ended, isEnd⟩
  have inRange : ended < ops.length := (List.getElem?_eq_some_iff.mp isEnd).1
  have begins := paced ended inRange isEnd
  exact List.mem_of_mem_take ((List.rtakeWhile_suffix _ _).subset begins)

end Pacing

end Link

end Rotor

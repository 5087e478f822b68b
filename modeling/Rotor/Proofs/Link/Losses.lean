import Rotor.Proofs.Link.Mirror
import Rotor.Proofs.Link.Provenance
import Rotor.Proofs.Link.Transmission
import Rotor.Proofs.Link.Views

/-!
# Replies that are lost

Between two beginnings of a frame a capture goes into a mailbox and nowhere else, so a link that
misses it looks the same from outside: `Link.outwardView` shows everything but the mailboxes and the
counters of captures and replies. At the next beginning the mailboxes are collected. There the links
still look the same if the capture was damaged, since a damaged reply and one that is overdue both
leave a motor without telemetry.
-/

namespace Rotor

namespace Link

/-- Everything that a link knows apart from its mailboxes and from its counters of captures and
replies. -/
def outwardView : View where
  motor state := { state with mailbox := .new }
  counters counters := { Counters.zero with flips := counters.flips }

variable {link left right next last : Link} {op : Op} {ops : List Op} {motor : Nat}
  {state : MotorState} {lost : Nat → Bool}

section Outward

theorem faithful_outwardView : outwardView.Faithful :=
  ⟨fun _ => rfl, fun _ => rfl, fun _ _ => rfl, fun _ _ => rfl, fun _ => rfl⟩

theorem direction_outward (link : Link) (motor : Nat) :
    (outwardView.of link).direction motor = link.direction motor := by
  rw [direction, View.motor?_of, Option.map_map]
  rfl

/-- Turning channels goes by what is seen from outside. -/
theorem outward_flipWhere (link : Link) {chosen : Nat → MotorState → Bool}
    (byView : ∀ motor state, chosen motor (outwardView.motor state) = chosen motor state) :
    outwardView.of (link.flipWhere chosen).1 = ((outwardView.of link).flipWhere chosen).1 := by
  have counted : (outwardView.of link).flipCount chosen = link.flipCount chosen := by
    unfold flipCount
    rw [View.motorCount_of]
    congr 1
    funext motor
    rw [View.motor?_of]
    cases link.motor? motor with
    | none => rfl
    | some state =>
        simp only [Option.map_some, Option.any_some, byView]
        rfl
  refine eq_of_motor? rfl ?_ ?_ ?_
  · rw [View.motorCount_of, motorCount_flipWhere, motorCount_flipWhere, View.motorCount_of]
  · intro motor
    rw [View.motor?_of, motor?_flipWhere, motor?_flipWhere, View.motor?_of, Option.map_map,
      Option.map_map]
    congr 1
    funext state
    simp only [Function.comp_apply, byView]
    cases direction : state.direction <;> cases chosenOne : chosen motor state <;>
      simp [outwardView, MotorState.flip, direction]
  · rw [counters_flipWhere, counted]
    simp only [View.of, outwardView, counters_flipWhere]

/-- From outside, a completed transfer turns the channels that have finished sending and does
nothing else, whatever was captured. -/
theorem outward_transferDone (link : Link) (target : Nat) (capture : Capture) :
    outwardView.of (link.transferDone target capture).1 =
      (outwardView.of link).finishSending target := by
  have shownDirection := direction_outward link target
  cases found : link.motor? target with
  | none =>
      have absent : link.direction target ≠ some .output := by
        simp [direction, found]
      rw [← shownDirection] at absent
      rw [transferDone_of_absent found, finishSending_of_not_output absent]
  | some state =>
      cases direction : state.direction with
      | input =>
          have listens : link.direction target ≠ some .output := by
            simp [Link.direction, found, direction]
          rw [← shownDirection] at listens
          rw [finishSending_of_not_output listens, transferDone_of_input found direction]
          refine View.of_eq_of_motor? (surroundings_received link target state capture)
            (motorCount_received link target state capture)
            (map_motor?_received outwardView.motor (fun _ _ => rfl) found capture) ?_
          rw [received_fst]
          rfl
      | output =>
          have drives : link.direction target = some .output := by
            simp [Link.direction, found, direction]
          rw [← shownDirection] at drives
          have shown : (outwardView.of link).motor? target = some (outwardView.motor state) := by
            rw [View.motor?_of, found]
            rfl
          rw [transferDone_of_output found direction, finishSending, if_pos drives,
            transferDone_of_output shown direction]
          rcases Bool.eq_false_or_eq_true link.telemetry with speaking | silent
          · have shownSpeaking : (outwardView.of link).telemetry = true := speaking
            rw [sent_of_speaking speaking, sent_of_speaking shownSpeaking]
            exact outward_flipWhere link fun _ _ => rfl
          · have shownSilent : (outwardView.of link).telemetry = false := silent
            rw [sent_of_silent silent, sent_of_silent shownSilent]

theorem outward_send (same : outwardView.of left = outwardView.of right) (target : Target)
    (command : Command) :
    outwardView.of (left.send target command).2 = outwardView.of (right.send target command).2 :=
  congrArg (fun link : Link => (link.send target command).2) same

end Outward

section Losing

/-- Whether an operation hands a capture over to one of the given motors. -/
def deliversTo (link : Link) (motors : Nat → Bool) : Op → Bool
  | .transferDone motor _ => motors motor && link.direction motor == some .input
  | _ => false

/-- Operations without those that hand a capture over to one of the given motors. -/
def withoutReplies (link : Link) (lost : Nat → Bool) : List Op → List Op
  | [] => []
  | op :: rest =>
    if link.deliversTo lost op then
      link.withoutReplies lost rest
    else
      match link.step op with
      | .ok (next, _) => op :: next.withoutReplies lost rest
      | .error _ => op :: rest

/-- Where no motor is lost, all operations stay. -/
theorem withoutReplies_none (link : Link) (ops : List Op) :
    link.withoutReplies (fun _ => false) ops = ops := by
  induction ops generalizing link with
  | nil => rfl
  | cons op rest ih =>
      have kept : link.deliversTo (fun _ => false) op = false := by
        cases op <;> rfl
      rw [withoutReplies, if_neg (by simp [kept])]
      split
      · rw [ih]
      · rfl

theorem mem_of_mem_withoutReplies (kept : op ∈ link.withoutReplies lost ops) : op ∈ ops := by
  induction ops generalizing link with
  | nil => exact kept
  | cons first rest ih =>
      rw [withoutReplies] at kept
      split at kept
      · exact List.mem_cons_of_mem _ (ih kept)
      · split at kept
        · rcases List.mem_cons.mp kept with rfl | later
          · exact List.mem_cons_self
          · exact List.mem_cons_of_mem _ (ih later)
        · exact kept

/-- A motor that is lost gets no capture from the operations that are left, the others get all of
theirs. -/
structure Loses (lost : Nat → Bool) (deliveries kept : Nat → List Capture) : Prop where
  of_lost : ∀ motor, lost motor = true → kept motor = []
  of_kept : ∀ motor, lost motor = false → kept motor = deliveries motor

/-- One link performs operations, and another performs them without the captures that are lost. Both
look the same afterwards, and no other captures are missing. -/
def EndAlike (lost : Nat → Bool) (left right : Link) (ops : List Op) : Prop :=
  ∃ last calls otherLast otherCalls, left.run ops = .ok (last, calls) ∧
    right.run (right.withoutReplies lost ops) = .ok (otherLast, otherCalls) ∧
    outwardView.of last = outwardView.of otherLast ∧
    Loses lost (left.deliveries · ops) (right.deliveries · (right.withoutReplies lost ops))

theorem direction_of_outward (same : outwardView.of left = outwardView.of right) (motor : Nat) :
    left.direction motor = right.direction motor := by
  rw [← direction_outward left, same, direction_outward]

/-- An operation that loses nothing is performed on both sides. -/
theorem endAlike_cons_of_kept {otherNext : Link} {made otherMade : List Call}
    (same : outwardView.of left = outwardView.of right) (kept : right.deliversTo lost op = false)
    (step : left.step op = .ok (next, made)) (otherStep : right.step op = .ok (otherNext, otherMade))
    (later : EndAlike lost next otherNext ops) : EndAlike lost left right (op :: ops) := by
  rcases later with ⟨last, calls, otherLast, otherCalls, ran, otherRan, sameLast, loses⟩
  have ranLeft := run_cons_eq_ok_iff.mpr ⟨next, made, calls, step, ran, rfl⟩
  have ranRight := run_cons_eq_ok_iff.mpr
    ⟨otherNext, otherMade, otherCalls, otherStep, otherRan, rfl⟩
  have fewer : right.withoutReplies lost (op :: ops) =
      op :: otherNext.withoutReplies lost ops := by
    simp [withoutReplies, kept, otherStep]
  unfold EndAlike
  rw [fewer]
  refine ⟨last, _, otherLast, _, ranLeft, ranRight, sameLast, ?_, ?_⟩
  · intro motor isLost
    have nothing : right.delivery? motor op = none := by
      cases op with
      | transferDone target capture =>
          simp only [deliversTo, Bool.and_eq_false_imp, beq_eq_false_iff_ne] at kept
          simp only [delivery?, ite_eq_right_iff, reduceCtorEq, imp_false, not_and]
          rintro rfl
          exact kept isLost
      | _ => rfl
    simp only [deliveries, nothing, otherStep, Option.toList_none, List.nil_append]
    exact loses.of_lost motor isLost
  · intro motor isKept
    have sameDelivery : right.delivery? motor op = left.delivery? motor op := by
      cases op <;> simp [delivery?, direction_of_outward same]
    simp only [deliveries, sameDelivery, step, otherStep]
    rw [loses.of_kept motor isKept]

/-- A capture that is lost is performed on one side only, where it is not seen from outside. -/
theorem endAlike_cons_of_lost {target : Nat} {capture : Capture} (isLost : lost target = true)
    (listens : right.direction target = some .input)
    (later : EndAlike lost (left.transferDone target capture).1 right ops) :
    EndAlike lost left right (.transferDone target capture :: ops) := by
  rcases later with ⟨last, calls, otherLast, otherCalls, ran, otherRan, sameLast, loses⟩
  have step : left.step (.transferDone target capture) =
    .ok (left.transferDone target capture) := rfl
  have fewer : right.withoutReplies lost (.transferDone target capture :: ops) =
      right.withoutReplies lost ops := by
    simp [withoutReplies, deliversTo, isLost, listens]
  unfold EndAlike
  rw [fewer]
  refine ⟨last, _, otherLast, otherCalls,
    run_cons_eq_ok_iff.mpr ⟨_, _, calls, step, ran, rfl⟩, otherRan, sameLast, loses.of_lost, ?_⟩
  intro motor isKept
  have differ : target ≠ motor := by
    rintro rfl
    rw [isLost] at isKept
    cases isKept
  simp only [deliveries, step, delivery?, differ, false_and, if_false, Option.toList_none,
    List.nil_append]
  exact loses.of_kept motor isKept

/-- From outside, a run of asides looks the same without the captures that are lost. -/
theorem endAlike (same : outwardView.of left = outwardView.of right)
    (asides : ∀ op ∈ ops, op.isAside = true) (lost : Nat → Bool) : EndAlike lost left right ops := by
  induction ops generalizing left right with
  | nil => exact ⟨left, [], right, [], rfl, rfl, same, fun _ _ => rfl, fun _ _ => rfl⟩
  | cons op rest ih =>
      rw [List.forall_mem_cons] at asides
      cases op with
      | transferDone target capture =>
          have finished : outwardView.of (left.transferDone target capture).1 =
              (outwardView.of right).finishSending target := by
            rw [outward_transferDone, same]
          cases delivers : right.deliversTo lost (.transferDone target capture) with
          | false =>
              apply endAlike_cons_of_kept same delivers rfl rfl
              exact ih (finished.trans (outward_transferDone right target capture).symm) asides.2
          | true =>
              simp only [deliversTo, Bool.and_eq_true, beq_iff_eq] at delivers
              apply endAlike_cons_of_lost delivers.1 delivers.2
              have unturned : (outwardView.of right).direction target ≠ some .output := by
                simp [direction_outward, delivers.2]
              exact ih (finished.trans (finishSending_of_not_output unturned)) asides.2
      | send target command =>
          exact endAlike_cons_of_kept same rfl rfl rfl
            (ih (outward_send same target command) asides.2)
      | _ => cases asides.1

end Losing

section Beginning

/-- Two links that look the same still do when a frame begins, if the same telemetry is found. -/
theorem outward_beginFrame (same : outwardView.of left = outwardView.of right)
    (telemetry : left.telemetry = true → ∀ motor one other, left.motor? motor = some one →
      right.motor? motor = some other →
        (one.begin left.encoding).telemetry = (other.begin right.encoding).telemetry) :
    outwardView.of left.beginFrame.1 = outwardView.of right.beginFrame.1 := by
  have sameMode : left.telemetry = right.telemetry := congrArg (·.telemetry) same
  rcases Bool.eq_false_or_eq_true left.telemetry with speaking | silent
  · have otherSpeaking : right.telemetry = true := sameMode.symm.trans speaking
    have sameAround : left.surroundings = right.surroundings := congrArg (·.surroundings) same
    refine View.of_eq_of_motor? ?_ ?_ ?_ ?_
    · simpa [beginFrame, speaking, otherSpeaking, surroundings] using sameAround
    · have counts := congrArg motorCount same
      rw [View.motorCount_of, View.motorCount_of] at counts
      simpa [beginFrame, speaking, otherSpeaking, motorCount] using counts
    · intro motor
      have motors := View.map_motor?_of_same same motor
      rw [motor?_beginFrame speaking, motor?_beginFrame otherSpeaking]
      cases found : left.motor? motor with
      | none =>
          rw [found, Option.map_none, eq_comm, Option.map_eq_none_iff] at motors
          rw [motors]
          rfl
      | some one =>
          rw [found, Option.map_some, eq_comm, Option.map_eq_some_iff] at motors
          rcases motors with ⟨other, otherFound, shown⟩
          have sameTelemetry := telemetry speaking motor one other found otherFound
          rw [otherFound]
          simp_all [outwardView, MotorState.begin]
    · have flips := congrArg (·.counters.flips) same
      have sameFlips : left.counters.flips = right.counters.flips := flips
      simp [outwardView, flips_beginFrame, sameFlips]
  · have otherSilent : right.telemetry = false := sameMode.symm.trans silent
    rw [beginFrame_of_silent silent, beginFrame_of_silent otherSilent]
    exact same

theorem deliveries_of_no_transfer (noTransfer : ∀ op ∈ ops, op.isAside = false) (motor : Nat) :
    link.deliveries motor ops = [] := by
  rw [List.eq_nil_iff_forall_not_mem]
  intro capture delivered
  cases noTransfer _ (transferDone_mem_of_mem_deliveries delivered)

end Beginning

section Frames

/-- A whole frame: it begins, `turned` is what becomes of the link once it is staged, and `last` what
the link is after the asides that follow. -/
structure Passes (link : Link) (staging : List Op) (turned : Link) (sent : List Call)
    (ops : List Op) (last : Link) (calls : List Call) : Prop where
  stages : ∀ op ∈ staging, (∃ motor throttle, op = .write motor throttle) ∨ op = .endFrame
  ran : link.beginFrame.1.run staging = .ok (turned, sent)
  asides : ∀ op ∈ ops, op.isAside = true
  ranAsides : turned.run ops = .ok (last, calls)

variable {one other turned otherTurned otherLast : Link} {staging otherOps : List Op}
  {sent otherSent calls otherCalls : List Call}

theorem Passes.wiring_turned (passes : Passes link staging turned sent ops last calls) :
    turned.wiring = link.wiring :=
  (wiring_run passes.ran).trans (wiring_beginFrame link)

theorem Passes.wiring_last (passes : Passes link staging turned sent ops last calls) :
    last.wiring = link.wiring :=
  (wiring_run passes.ranAsides).trans passes.wiring_turned

theorem Passes.soundMailboxes (passes : Passes link staging turned sent ops last calls)
    (mailboxes : link.SoundMailboxes) : turned.SoundMailboxes ∧ last.SoundMailboxes := by
  have atTurn := soundMailboxes_run (soundMailboxes_effect mailboxes .beginFrame) passes.ran
  exact ⟨atTurn, soundMailboxes_run atTurn passes.ranAsides⟩

/-- What is known of a motor at the end of a frame and its asides. -/
theorem Passes.exists_heardSince (passes : Passes link staging turned sent ops last calls)
    (speaking : link.telemetry = true) (nodup : link.wiring.timers.Nodup)
    (mailboxes : link.SoundMailboxes) (found : last.motor? motor = some state) :
    ∃ first, link.beginFrame.1.motor? motor = some first ∧
      HeardSince first last.encoding.captureLength (sent ++ calls) (turned.deliveries motor ops)
        state := by
  have begunWiring := wiring_beginFrame link
  have turnedWiring := passes.wiring_turned
  have lastWiring := passes.wiring_last
  have stagesOnly (op : Op) (opMem : op ∈ staging) : op ≠ .beginFrame ∧ op.isAside = false := by
    rcases passes.stages op opMem with ⟨_, _, rfl⟩ | rfl <;> simp [Op.isAside]
  have wired := channel?_wiring found
  rw [lastWiring, ← begunWiring] at wired
  rcases exists_motor?_of_channel? wired with ⟨first, foundFirst, _⟩
  rcases settled_beginFrame speaking mailboxes motor first foundFirst with ⟨empty, settled⟩
  rcases (heardSince_start empty settled last.encoding.captureLength).run
    (begunWiring ▸ nodup) (soundMailboxes_effect mailboxes .beginFrame)
    ((congrArg Wiring.telemetry begunWiring).trans speaking)
    (congrArg (·.encoding.captureLength) (begunWiring.trans lastWiring.symm)) foundFirst
    (fun op opMem => (stagesOnly op opMem).1) passes.ran with ⟨mid, foundMid, since⟩
  rw [deliveries_of_no_transfer fun op opMem => (stagesOnly op opMem).2] at since
  rcases since.run (turnedWiring ▸ nodup) (passes.soundMailboxes mailboxes).1
    ((congrArg Wiring.telemetry turnedWiring).trans speaking)
    (congrArg (·.encoding.captureLength) (turnedWiring.trans lastWiring.symm)) foundMid (by
      rintro op opMem rfl
      cases passes.asides _ opMem) passes.ranAsides with ⟨after, foundAfter, known⟩
  cases found.symm.trans foundAfter
  exact ⟨first, foundFirst, known⟩

/-- A motor is lost only if its channel was started and the first capture handed over to it, if there
is one, is damaged. -/
def Garbled (lost : Nat → Bool) (turned : Link) (sent : List Call) (ops : List Op) : Prop :=
  ∀ motor channel, lost motor = true → turned.wiring.channel? motor = some channel →
    sent.any (Call.startsChannel channel) = true ∧
    ∀ capture, (turned.deliveries motor ops).head? = some capture →
      turned.encoding.decode (capture.words.take capture.count) = none

/-- Two links that look the same now and when the next frame begins. -/
structure Twins (one other : Link) : Prop where
  now : outwardView.of one = outwardView.of other
  begun : outwardView.of one.beginFrame.1 = outwardView.of other.beginFrame.1
  nodup : one.wiring.timers.Nodup
  mailboxes : one.SoundMailboxes
  otherMailboxes : other.SoundMailboxes

theorem Twins.refl (nodup : link.wiring.timers.Nodup) (mailboxes : link.SoundMailboxes) :
    Twins link link :=
  ⟨rfl, rfl, nodup, mailboxes, mailboxes⟩

/-- Twins send the same and look the same at the end of a frame. -/
theorem Twins.frame (twins : Twins one other)
    (stages : ∀ op ∈ staging, (∃ motor throttle, op = .write motor throttle) ∨ op = .endFrame) :
    (one.beginFrame.1.run staging).map outwardView.result =
      (other.beginFrame.1.run staging).map outwardView.result := by
  apply faithful_outwardView.run twins.begun
  intro op opMem
  rcases stages op opMem with write | ends
  · exact .inl write
  · exact .inr (.inl ends)

/-- A motor finds the same telemetry where its replies are lost as where they are damaged. -/
theorem telemetry_begin_eq {first otherFirst otherState : MotorState} {encoding : Encoding}
    {calls otherCalls : List Call} {heard otherHeard : List Capture}
    (since : HeardSince first encoding.captureLength (sent ++ calls) heard state)
    (otherSince : HeardSince otherFirst encoding.captureLength (sent ++ otherCalls) otherHeard
      otherState)
    (honest : ∀ capture ∈ heard, capture.Honest encoding.captureLength)
    (sameFirst : outwardView.motor first = outwardView.motor otherFirst)
    (same : outwardView.motor state = outwardView.motor otherState)
    (heardSame : otherHeard = heard ∨ otherHeard = [] ∧
      sent.any (Call.startsChannel first.channel) = true ∧
      ∀ capture, heard.head? = some capture →
        encoding.decode (capture.words.take capture.count) = none) :
    (state.begin encoding).telemetry = (otherState.begin encoding).telemetry := by
  have owes : state.owesReply = otherState.owesReply := congrArg (·.owesReply) same
  have kept : first.telemetry = otherFirst.telemetry := congrArg (·.telemetry) sameFirst
  rw [since.owesReply_eq, otherSince.owesReply_eq] at owes
  rw [since.telemetry_begin honest]
  rcases heardSame with rfl | ⟨rfl, started, damaged⟩
  · rw [otherSince.telemetry_begin honest, owes, kept]
  · have overdue : (sent ++ calls).any (Call.startsChannel first.channel) = true := by
      rw [List.any_append, started, Bool.true_or]
    rw [otherSince.telemetry_begin (by simp), ← owes, overdue]
    cases first : heard.head? with
    | none => rfl
    | some capture => simpa using damaged capture first

/-- At the end of a frame, twins find the same telemetry although one of them misses replies that
the other one finds damaged. -/
theorem Twins.telemetry_begin (twins : Twins one other)
    (passes : Passes one staging turned sent ops last calls)
    (otherPasses : Passes other staging otherTurned sent otherOps otherLast otherCalls)
    (sameLast : outwardView.of last = outwardView.of otherLast)
    (loses : Loses lost (turned.deliveries · ops) (otherTurned.deliveries · otherOps))
    (honest : ∀ motor capture, .transferDone motor capture ∈ ops →
      capture.Honest turned.encoding.captureLength)
    (garbled : Garbled lost turned sent ops) (speaking : last.telemetry = true)
    {otherState : MotorState} (found : last.motor? motor = some state)
    (otherFound : otherLast.motor? motor = some otherState) :
    (state.begin last.encoding).telemetry = (otherState.begin otherLast.encoding).telemetry := by
  have oneSpeaking : one.telemetry = true :=
    (congrArg Wiring.telemetry passes.wiring_last).symm.trans speaking
  have otherSpeaking : other.telemetry = true :=
    (congrArg (·.telemetry) twins.now).symm.trans oneSpeaking
  have otherNodup : other.wiring.timers.Nodup := by
    have timers : one.timers = other.timers := congrArg (·.timers) twins.now
    exact (congrArg (fun timers => (timers.map TimerState.timer).Nodup) timers).mp twins.nodup
  have sameEncoding : last.encoding = otherLast.encoding := congrArg (·.encoding) sameLast
  have lastEncoding : last.encoding = turned.encoding :=
    congrArg Wiring.encoding (wiring_run passes.ranAsides)
  rcases passes.exists_heardSince oneSpeaking twins.nodup twins.mailboxes found with
    ⟨first, foundFirst, since⟩
  rcases otherPasses.exists_heardSince otherSpeaking otherNodup twins.otherMailboxes otherFound with
    ⟨otherFirst, otherFoundFirst, otherSince⟩
  have sameFirst := View.map_motor?_of_same twins.begun motor
  rw [foundFirst, otherFoundFirst] at sameFirst
  have sameState := View.map_motor?_of_same sameLast motor
  rw [found, otherFound] at sameState
  rw [← sameEncoding] at otherSince ⊢
  apply telemetry_begin_eq since otherSince _ (Option.some.inj sameFirst) (Option.some.inj sameState)
  · cases isLost : lost motor with
    | false => exact .inl (loses.of_kept motor isLost)
    | true =>
        right
        have wired := channel?_wiring foundFirst
        rw [← wiring_run passes.ran] at wired
        rw [lastEncoding]
        exact ⟨loses.of_lost motor isLost, garbled motor first.channel isLost wired⟩
  · intro capture delivered
    rw [lastEncoding]
    exact honest motor capture (transferDone_mem_of_mem_deliveries delivered)

/-- Twins are twins again after a frame and its asides, although one of them misses replies that the
other one finds damaged. -/
theorem Twins.endAlike (twins : Twins one other)
    (stages : ∀ op ∈ staging, (∃ motor throttle, op = .write motor throttle) ∨ op = .endFrame)
    (ran : one.beginFrame.1.run staging = .ok (turned, sent))
    (otherRan : other.beginFrame.1.run staging = .ok (otherTurned, otherSent))
    (asides : ∀ op ∈ ops, op.isAside = true)
    (honest : ∀ motor capture, .transferDone motor capture ∈ ops →
      capture.Honest turned.encoding.captureLength)
    (garbled : Garbled lost turned sent ops) :
    ∃ last calls otherLast otherCalls, turned.run ops = .ok (last, calls) ∧
      otherTurned.run (otherTurned.withoutReplies lost ops) = .ok (otherLast, otherCalls) ∧
      Twins last otherLast := by
  have shown := twins.frame stages
  rw [ran, otherRan] at shown
  obtain ⟨sameTurned, rfl⟩ := Prod.mk.inj (Except.ok.inj shown)
  rcases Link.endAlike sameTurned asides lost with
    ⟨last, calls, otherLast, otherCalls, ranAsides, otherRanAsides, sameLast, loses⟩
  have passes : Passes one staging turned sent ops last calls := ⟨stages, ran, asides, ranAsides⟩
  have otherPasses : Passes other staging otherTurned sent _ otherLast otherCalls :=
    ⟨stages, otherRan, fun op opMem => asides op (mem_of_mem_withoutReplies opMem), otherRanAsides⟩
  refine ⟨last, calls, otherLast, otherCalls, ranAsides, otherRanAsides, sameLast, ?_, ?_,
    (passes.soundMailboxes twins.mailboxes).2, (otherPasses.soundMailboxes twins.otherMailboxes).2⟩
  · apply outward_beginFrame sameLast
    intro speaking motor state otherState found otherFound
    exact twins.telemetry_begin passes otherPasses sameLast loses honest garbled speaking found
      otherFound
  · rw [passes.wiring_last]
    exact twins.nodup

end Frames

end Link

end Rotor

import Rotor.Proofs.Link.Exchange
import Rotor.Proofs.Link.Ledger

/-!
# The counters balance with the ledger

The counters of a link are bumped in different operations, by the interrupt and by the control loop.
`Link.Balanced` says that they agree with the ledger of the run: every capture that was handed over
is settled or waits, and a motor owes a reply exactly when its channel was started since the last
frame began. With telemetry every operation keeps this.
-/

namespace Rotor

namespace MotorState

variable {state : MotorState} {encoding : Encoding}

/-- A capture that waits is found valid or damaged, and nothing else is. -/
theorem isFull_eq_reply (state : MotorState) (encoding : Encoding) :
    state.mailbox.isFull.toNat =
      (state.reply encoding).isDamaged.toNat + (state.reply encoding).isValid.toNat := by
  unfold reply Mailbox.collect Mailbox.isFull
  by_cases full : state.mailbox.phase = .full
  · simp only [full, if_true]
    split <;> rfl
  · simp [full, Reply.isDamaged, Reply.isValid]

theorem isOverdue_reply (state : MotorState) (encoding : Encoding) :
    (state.reply encoding).isOverdue =
      ((state.reply encoding).isMissing && state.owesReply) := by
  unfold reply
  split
  · split <;> rfl
  · simp [Reply.isOverdue, Reply.isMissing]

theorem isFull_begin (state : MotorState) (encoding : Encoding) :
    (state.begin encoding).mailbox.isFull = false := by
  unfold begin Mailbox.collect Mailbox.isFull
  by_cases full : state.mailbox.phase = .full <;> simp [full]

theorem phase_begin_ne_filling (idle : state.mailbox.phase ≠ .filling) (encoding : Encoding) :
    (state.begin encoding).mailbox.phase ≠ .filling := by
  unfold begin Mailbox.collect
  by_cases full : state.mailbox.phase = .full <;> simp [full, idle]

end MotorState

namespace Link

variable {link next last : Link} {op : Op} {ops : List Op} {calls made : List Call}
  {ledger : Ledger} {motor : Nat} {state : MotorState}

section Balance

/-- The counters of a link agree with a ledger. -/
structure Balanced (link : Link) (ledger : Ledger) : Prop where
  captured : link.counters.captured = UInt32.ofNat
    (ledger.settled.countP (·.reply.isDamaged) + ledger.settled.countP (·.reply.isValid) +
      link.waiting)
  damaged : link.counters.damaged = UInt32.ofNat (ledger.settled.countP (·.reply.isDamaged))
  missed : link.counters.missed = UInt32.ofNat (ledger.settled.countP (·.reply.isOverdue))
  overdue : ∀ settlement ∈ ledger.settled, settlement.reply.isOverdue =
    (settlement.reply.isMissing && decide (0 < settlement.starts))
  owes : ∀ {motor state}, link.motor? motor = some state →
    state.owesReply = ledger.recent.any (Call.startsChannel state.channel)
  idle : ∀ {motor state}, link.motor? motor = some state → state.mailbox.phase ≠ .filling

/-- What a motor has at stake between two frames. -/
def stake (link : Link) (motor : Nat) : Option (Channel × Mailbox × Bool) :=
  (link.motor? motor).map fun state => (state.channel, state.mailbox, state.owesReply)

/-- The balance is kept by what touches no mailbox and lets the started motors owe a reply. -/
theorem Balanced.carry (balanced : link.Balanced ledger)
    (motorCount : next.motorCount = link.motorCount)
    (counters : next.counters = { link.counters with flips := next.counters.flips })
    (stakes : ∀ motor, next.stake motor = (link.motor? motor).map fun state =>
      (state.channel, state.mailbox,
        state.owesReply || made.any (Call.startsChannel state.channel))) :
    next.Balanced { ledger with recent := ledger.recent ++ made } := by
  -- The fields ask where a motor of the later link comes from.
  have before {motor : Nat} {after : MotorState} (found : next.motor? motor = some after) :
      ∃ state, link.motor? motor = some state ∧ state.channel = after.channel ∧
        state.mailbox = after.mailbox ∧ after.owesReply =
          (state.owesReply || made.any (Call.startsChannel state.channel)) := by
    have stake := stakes motor
    simp only [Link.stake, found, Option.map_some] at stake
    rcases Option.map_eq_some_iff.mp stake.symm with ⟨state, stateFound, same⟩
    simp only [Prod.mk.injEq] at same
    exact ⟨state, stateFound, same.1, same.2.1, same.2.2.symm⟩
  have waiting : next.waiting = link.waiting := by
    apply tally_congr motorCount
    intro motor
    have full := congrArg (Option.any fun stake : Channel × Mailbox × Bool => stake.2.1.isFull)
      (stakes motor)
    simpa [Link.stake, Option.any_map, Function.comp_def] using full
  refine ⟨?_, ?_, ?_, balanced.overdue, ?_, ?_⟩
  · rw [counters, waiting]
    exact balanced.captured
  · rw [counters]
    exact balanced.damaged
  · rw [counters]
    exact balanced.missed
  · intro motor after found
    rcases before found with ⟨state, stateFound, channel, _, owes⟩
    rw [owes, balanced.owes stateFound, ← channel, List.any_append]
  · intro motor after found
    rcases before found with ⟨state, stateFound, _, mailbox, _⟩
    rw [← mailbox]
    exact balanced.idle stateFound

/-- The balance is kept by what changes nothing that is at stake and starts no channel. -/
theorem Balanced.still (balanced : link.Balanced ledger)
    (motorCount : next.motorCount = link.motorCount)
    (counters : next.counters = { link.counters with flips := next.counters.flips })
    (stakes : ∀ motor, next.stake motor = link.stake motor)
    (noStart : ∀ call ∈ made, ∀ channel, call.startsChannel channel = false) :
    next.Balanced { ledger with recent := ledger.recent ++ made } := by
  apply balanced.carry motorCount counters
  intro motor
  have noneStarts (channel : Channel) : made.any (Call.startsChannel channel) = false := by
    rw [List.any_eq_false]
    intro call callMem
    simp [noStart call callMem channel]
  rw [stakes]
  simp only [stake, noneStarts, Bool.or_false]

theorem waiting_eq_zero (noneFull : ∀ {motor state}, link.motor? motor = some state →
    state.mailbox.isFull = false) : link.waiting = 0 := by
  rw [waiting, tally, List.countP_eq_zero]
  intro motor _ waits
  rcases (Option.any_eq_true _ _).mp waits with ⟨state, found, full⟩
  simp [noneFull found] at full

theorem Balanced.start (counters : link.counters = .zero)
    (fresh : ∀ {motor state}, link.motor? motor = some state →
      state.owesReply = false ∧ state.mailbox.phase = .empty) : link.Balanced .empty := by
  have waiting : link.waiting = 0 := by
    apply waiting_eq_zero
    intro motor state found
    simp [Mailbox.isFull, (fresh found).2]
  refine ⟨?_, ?_, ?_, by simp [Ledger.empty], ?_, ?_⟩
  · rw [counters, waiting]
    rfl
  · rw [counters]
    rfl
  · rw [counters]
    rfl
  · intro motor state found
    exact (fresh found).1
  · intro motor state found
    simp [(fresh found).2]

/-- The beginning of a frame settles what waits. -/
theorem Balanced.beginFrame (balanced : link.Balanced ledger) (speaking : link.telemetry = true) :
    link.beginFrame.1.Balanced
      { recent := [], settled := ledger.settled ++ link.settlements ledger.recent } := by
  rcases counters_beginFrame speaking with ⟨captured, damaged, missed⟩
  have begun {motor : Nat} {after : MotorState}
      (found : link.beginFrame.1.motor? motor = some after) :
      ∃ state, link.motor? motor = some state ∧ state.begin link.encoding = after := by
    rw [motor?_beginFrame speaking] at found
    exact Option.map_eq_some_iff.mp found
  have emptied : link.beginFrame.1.waiting = 0 := by
    apply waiting_eq_zero
    intro motor after found
    rcases begun found with ⟨state, _, rfl⟩
    exact state.isFull_begin link.encoding
  have settled : link.waiting = link.tally (fun state => (state.reply link.encoding).isDamaged) +
      link.tally fun state => (state.reply link.encoding).isValid := by
    apply countP_eq_add
    intro motor _
    cases link.motor? motor with
    | none => rfl
    | some state => exact state.isFull_eq_reply link.encoding
  refine ⟨?_, ?_, ?_, ?_, ?_, ?_⟩
  · simp only [List.countP_append, countP_settlements]
    rw [captured, balanced.captured, emptied, settled]
    congr 1
    omega
  · simp only [List.countP_append, countP_settlements]
    rw [damaged, balanced.damaged, UInt32.ofNat_add]
  · simp only [List.countP_append, countP_settlements]
    rw [missed, balanced.missed, UInt32.ofNat_add]
  · intro settlement settlementMem
    rcases List.mem_append.mp settlementMem with earlier | now
    · exact balanced.overdue settlement earlier
    · rcases mem_settlements.mp now with ⟨motor, state, found, rfl⟩
      have started : ledger.recent.any (Call.startsChannel state.channel) =
          decide (0 < ledger.recent.countP (Call.startsChannel state.channel)) := by
        rw [Bool.eq_iff_iff, decide_eq_true_eq, List.countP_pos_iff, List.any_eq_true]
      calc (state.reply link.encoding).isOverdue
          = ((state.reply link.encoding).isMissing && state.owesReply) :=
            state.isOverdue_reply link.encoding
        _ = ((state.reply link.encoding).isMissing &&
              decide (0 < ledger.recent.countP (Call.startsChannel state.channel))) := by
            rw [balanced.owes found, started]
  · intro motor after found
    rcases begun found with ⟨state, _, rfl⟩
    rfl
  · intro motor after found
    rcases begun found with ⟨state, stateFound, rfl⟩
    exact MotorState.phase_begin_ne_filling (balanced.idle stateFound) _

theorem waiting_received (found : link.motor? motor = some state)
    (empty : state.mailbox.phase = .empty) (capture : Capture) :
    (link.received motor state capture).1.waiting = link.waiting + 1 := by
  have one : (List.range link.motorCount).countP (fun other => other == motor) = 1 := by
    rw [← List.count, List.count_range, if_pos (lt_motorCount_of_motor? found)]
  unfold waiting tally
  rw [motorCount_received, ← one]
  apply countP_eq_add
  intro other _
  rw [motor?_received found]
  by_cases same : motor = other
  · subst same
    simp [found, empty, Mailbox.isFull, Mailbox.deposit, Mailbox.beginDeposit?,
      Mailbox.endDeposit]
  · simp [same, Ne.symm same]

theorem Balanced.received (balanced : link.Balanced ledger)
    (found : link.motor? motor = some state) (empty : state.mailbox.phase = .empty)
    (capture : Capture) : (link.received motor state capture).1.Balanced ledger := by
  have counters := congrArg Link.counters (received_fst link motor state capture)
  have kept {other : Nat} {after : MotorState}
      (afterFound : (link.received motor state capture).1.motor? other = some after) :
      ∃ before, link.motor? other = some before ∧ after.channel = before.channel ∧
        after.owesReply = before.owesReply ∧ after.mailbox.phase ≠ .filling := by
    rw [motor?_received found] at afterFound
    split at afterFound
    · next same =>
      subst same
      cases afterFound
      refine ⟨state, found, rfl, rfl, ?_⟩
      simp [Mailbox.deposit, Mailbox.beginDeposit?, empty, Mailbox.endDeposit]
    · exact ⟨after, afterFound, rfl, rfl, balanced.idle afterFound⟩
  refine ⟨?_, ?_, ?_, balanced.overdue, ?_, ?_⟩
  · rw [counters, waiting_received found empty]
    simp only [empty, if_true]
    rw [balanced.captured, ← Nat.add_assoc, UInt32.ofNat_add _ 1]
    rfl
  · rw [counters]
    exact balanced.damaged
  · rw [counters]
    exact balanced.missed
  · intro other after afterFound
    rcases kept afterFound with ⟨before, beforeFound, channel, owes, _⟩
    rw [owes, channel]
    exact balanced.owes beforeFound
  · intro other after afterFound
    rcases kept afterFound with ⟨_, _, _, _, idle⟩
    exact idle

theorem Balanced.transferDone (balanced : link.Balanced ledger) (motor : Nat)
    (capture : Capture) : (link.transferDone motor capture).1.Balanced
      { ledger with recent := ledger.recent ++ (link.transferDone motor capture).2 } := by
  have noStart : ∀ call ∈ (link.transferDone motor capture).2, ∀ channel,
      call.startsChannel channel = false := by
    intro call callMem
    exact Call.startsChannel_of_quiet (quiet_transferDone link motor capture call callMem)
  cases found : link.motor? motor with
  | none =>
      rw [transferDone_of_absent found] at noStart ⊢
      exact balanced.still rfl rfl (fun _ => rfl) noStart
  | some state =>
      cases direction : state.direction with
      | input =>
          rw [transferDone_of_input found direction] at noStart ⊢
          by_cases empty : state.mailbox.phase = .empty
          · -- The capture is taken in first; the calls that go with it start nothing.
            exact (balanced.received found empty capture).still rfl rfl (fun _ => rfl) noStart
          · rw [received_of_taken empty] at noStart ⊢
            exact balanced.still rfl rfl (fun _ => rfl) noStart
      | output =>
          have stakes (other : Nat) :
              (link.transferDone motor capture).1.stake other = link.stake other := by
            unfold stake
            rw [motor?_transferDone_of_output found direction, Option.map_map]
            congr 1
            funext before
            simp only [Function.comp_apply]
            split <;> rfl
          refine balanced.still (motorCount_transferDone link motor capture) ?_ stakes noStart
          rw [transferDone_of_output found direction]
          rcases Bool.eq_false_or_eq_true link.telemetry with speaking | silent
          · rw [sent_of_speaking speaking]
            rfl
          · rw [sent_of_silent silent]

theorem stake_staged (link : Link) (target : Nat) (throttle : UInt16) (channel : Channel)
    (motor : Nat) : (link.staged target throttle channel).stake motor = link.stake motor :=
  map_motor?_staged _ (fun _ _ => rfl) link target throttle channel motor

/-- With telemetry, the motors whose channels are started owe a reply. -/
theorem stake_fire (speaking : link.telemetry = true) (nodup : link.wiring.timers.Nodup)
    (motor : Nat) : link.fire.1.stake motor = (link.motor? motor).map fun state =>
      (state.channel, state.mailbox,
        state.owesReply || link.fire.2.any (Call.startsChannel state.channel)) := by
  rw [stake, motor?_fire, Option.map_map]
  congr 1
  funext state
  simp only [Function.comp_apply, speaking, Bool.true_and, isDue_eq_any_startsChannel nodup]

/-- With telemetry, every operation keeps the balance. -/
theorem Balanced.effect (balanced : link.Balanced ledger) (speaking : link.telemetry = true)
    (nodup : link.wiring.timers.Nodup) (effect : link.Effect op next made) :
    next.Balanced (link.note ledger made op) := by
  cases effect with
  | beginFrame => exact balanced.beginFrame speaking
  | writeAbsent throttle absent => exact balanced.still rfl rfl (fun _ => rfl) (by simp)
  | write throttle found =>
      refine balanced.still (congrArg Wiring.motorCount (wiring_staged link _ throttle _)) rfl
        (stake_staged link _ throttle _) ?_
      intro call callMem channel
      split at callMem
      · simp at callMem
      · rw [List.mem_singleton.mp callMem]
        rfl
  | endHeld held => exact balanced.still rfl rfl (fun _ => rfl) (by simp)
  | endReleased released =>
      exact balanced.carry (congrArg Wiring.motorCount (wiring_fire { link with commands := _ }))
        rfl (stake_fire speaking nodup)
  | transferDone motor capture => exact balanced.transferDone motor capture
  | send target command => exact balanced.still rfl rfl (fun _ => rfl) (by simp)

theorem Balanced.run (balanced : link.Balanced .empty) (speaking : link.telemetry = true)
    (nodup : link.wiring.timers.Nodup) (run : link.run ops = .ok (last, calls)) :
    last.Balanced (link.ledger ops) := by
  refine step_induction (motive := fun ops mid _ => mid.Balanced (link.ledger ops)) balanced ?_ run
  intro ops mid calls op next made ran step balanced
  have wiring := wiring_run ran
  rw [ledger_concat ran step]
  exact balanced.effect ((congrArg Wiring.telemetry wiring).trans speaking) (wiring ▸ nodup)
    (effect_of_step step)

end Balance

end Link

end Rotor

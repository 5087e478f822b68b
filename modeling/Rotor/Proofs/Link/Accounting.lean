import Rotor.Proofs.Link.Balance
import Rotor.Proofs.Link.Connected

/-!
# Captures and starts are accounted for

`Link.Attributed` says that no start of a channel is lost on the way into the ledger of a run: it is
settled by the next beginning of a frame, or waits for one. Together with the balance of the
counters this accounts for every capture and for every start.
-/

namespace Rotor

namespace Link

variable {link last next : Link} {op : Op} {ops : List Op} {calls made : List Call}
  {ledger : Ledger} {motor : Nat} {state : MotorState}

section Attribution

/-- A ledger attributes the calls made in a run: every beginning of a frame settles once with every
motor, and every start of its channel is settled or waits. -/
structure Attributed (wiring : Wiring) (ops : List Op) (calls : List Call) (ledger : Ledger) :
    Prop where
  connected : ∀ settlement ∈ ledger.settled, (wiring.channel? settlement.motor).isSome = true
  frames : ∀ {motor channel}, wiring.channel? motor = some channel →
    (ledger.settledWith motor).length = ops.count .beginFrame
  starts : ∀ {motor channel}, wiring.channel? motor = some channel →
    calls.countP (Call.startsChannel channel) =
      ((ledger.settledWith motor).map Settlement.starts).sum +
        ledger.recent.countP (Call.startsChannel channel)
  recent_le : ∀ channel, ledger.recent.countP (Call.startsChannel channel) ≤ unsettled ops
  single : Paced ops → ∀ settlement ∈ ledger.settled, settlement.starts ≤ 1
  fresh : .beginFrame ∉ ops → ledger.settled = []

theorem Attributed.empty (wiring : Wiring) : Attributed wiring [] [] .empty :=
  ⟨by simp [Ledger.empty], by simp [Ledger.empty, Ledger.settledWith],
    by simp [Ledger.empty, Ledger.settledWith], by simp [Ledger.empty],
    by simp [Ledger.empty], fun _ => rfl⟩

theorem settledWith_note_beginFrame (ledger : Ledger) (found : link.motor? motor = some state) :
    (link.note ledger made .beginFrame).settledWith motor =
      ledger.settledWith motor ++ [state.settlement link.encoding ledger.recent motor] := by
  rw [Ledger.settledWith, note, List.filter_append, settlements_with found]
  rfl

theorem Attributed.beginFrame (attributed : Attributed link.wiring ops calls ledger) :
    Attributed link.wiring (ops ++ [.beginFrame]) (calls ++ link.beginFrame.2)
      (link.note ledger link.beginFrame.2 .beginFrame) := by
  refine ⟨?_, ?_, ?_, ?_, ?_, ?_⟩
  · intro settlement settlementMem
    rcases List.mem_append.mp settlementMem with earlier | now
    · exact attributed.connected settlement earlier
    · rcases mem_settlements.mp now with ⟨motor, state, found, rfl⟩
      simp [MotorState.settlement, channel?_wiring found]
  · intro motor channel wired
    rcases exists_motor?_of_channel? wired with ⟨state, found, _⟩
    rw [settledWith_note_beginFrame ledger found, List.length_append, attributed.frames wired,
      List.count_append]
    rfl
  · intro motor channel wired
    rcases exists_motor?_of_channel? wired with ⟨state, found, rfl⟩
    rw [settledWith_note_beginFrame ledger found, List.countP_append, attributed.starts wired,
      countP_of_quiet (quiet_beginFrame link)]
    simp [note, MotorState.settlement]
  · intro channel
    simp [note]
  · intro paced settlement settlementMem
    have earlierPaced := (paced_concat_iff.mp paced).1
    rcases List.mem_append.mp settlementMem with earlier | now
    · exact attributed.single earlierPaced settlement earlier
    · rcases mem_settlements.mp now with ⟨motor, state, _, rfl⟩
      exact (attributed.recent_le state.channel).trans (unsettled_le_one earlierPaced)
  · intro noBegin
    simp at noBegin

theorem Attributed.effect (attributed : Attributed link.wiring ops calls ledger)
    (nodup : link.wiring.timers.Nodup) (effect : link.Effect op next made) :
    Attributed link.wiring (ops ++ [op]) (calls ++ made) (link.note ledger made op) := by
  by_cases begins : op = .beginFrame
  · subst begins
    cases effect
    exact attributed.beginFrame
  · rw [note_of_ne begins]
    refine ⟨attributed.connected, ?_, ?_, ?_, ?_, ?_⟩
    · intro motor channel wired
      rw [List.count_append, List.count_singleton, if_neg (by simpa using begins)]
      exact attributed.frames wired
    · intro motor channel wired
      rw [List.countP_append, List.countP_append, attributed.starts wired, Nat.add_assoc]
      rfl
    · intro channel
      rw [List.countP_append, unsettled_concat begins]
      exact Nat.add_le_add (attributed.recent_le channel) (countP_effect_le nodup effect channel)
    · intro paced
      exact attributed.single (paced_concat_iff.mp paced).1
    · intro noBegin
      exact attributed.fresh fun beginMem => noBegin (List.mem_append_left _ beginMem)

theorem attributed_run (nodup : link.wiring.timers.Nodup)
    (run : link.run ops = .ok (last, calls)) :
    Attributed link.wiring ops calls (link.ledger ops) := by
  refine step_induction (motive := fun ops _ calls =>
    Attributed link.wiring ops calls (link.ledger ops)) (Attributed.empty _) ?_ run
  intro ops mid calls op next made ran step attributed
  have wiring := wiring_run ran
  rw [ledger_concat ran step]
  rw [← wiring] at attributed nodup ⊢
  exact attributed.effect nodup (effect_of_step step)

end Attribution

section Accounts

theorem balanced_of_connect {settings : MotorSettings} {timing : Timing}
    {answers : Nat → Except ClaimError Channel} {init : List Call} (fits : timing.Fits)
    (connected : connect settings timing answers = .ok (link, init)) :
    link.Balanced .empty ∧ link.wiring.timers.Nodup ∧ link.telemetry = settings.telemetry := by
  rcases connect_of_fits fits settings answers with ⟨micros, same⟩
  have initial := (initial_of_connect connected).1
  cases connected.symm.trans same
  refine ⟨Balanced.start rfl ?_, initial.nodup, rfl⟩
  intro motor state found
  rw [(initial.answered found).2.2]
  exact ⟨rfl, rfl⟩

/-- Where no channel was started twice between two frames, the starts without a capture are the
overdue replies. -/
theorem sum_starts_missing {settled : List Settlement}
    (overdue : ∀ settlement ∈ settled, settlement.reply.isOverdue =
      (settlement.reply.isMissing && decide (0 < settlement.starts)))
    (single : ∀ settlement ∈ settled, settlement.starts ≤ 1) :
    ((settled.filter (·.reply.isMissing)).map Settlement.starts).sum =
      settled.countP (·.reply.isOverdue) := by
  induction settled with
  | nil => rfl
  | cons settlement rest ih =>
      rw [List.forall_mem_cons] at overdue single
      rw [List.countP_cons, ← ih overdue.2 single.2, overdue.1, List.filter_cons]
      cases missing : settlement.reply.isMissing with
      | false => simp
      | true =>
          have starts := single.1
          rcases Nat.eq_zero_or_pos settlement.starts with unstarted | started
          · simp [unstarted]
          · have one : settlement.starts = 1 := Nat.le_antisymm starts started
            simp [one, Nat.add_comm]

/-- The first frame of a paced run misses nothing. -/
theorem missed_of_first (balanced : link.Balanced ledger) (speaking : link.telemetry = true)
    {wiring : Wiring} (attributed : Attributed wiring ops calls ledger) (paced : Paced ops)
    (first : .beginFrame ∉ ops) : link.beginFrame.1.counters.missed = 0 := by
  have noEnd : unsettled ops = 0 := by
    rw [unsettled, List.count_eq_zero]
    intro ends
    exact first (endFrame_mem_imp paced ((List.rtakeWhile_suffix _ _).subset ends))
  have noneOverdue : (link.tally fun state => (state.reply link.encoding).isOverdue) = 0 := by
    rw [tally, List.countP_eq_zero]
    intro motor _ overdue
    rcases (Option.any_eq_true _ _).mp overdue with ⟨state, found, late⟩
    have unstarted := attributed.recent_le state.channel
    rw [noEnd, Nat.le_zero, List.countP_eq_zero] at unstarted
    rw [MotorState.isOverdue_reply, balanced.owes found, Bool.and_eq_true, List.any_eq_true] at late
    rcases late.2 with ⟨call, callMem, starts⟩
    exact unstarted call callMem starts
  rw [(counters_beginFrame speaking).2.2, noneOverdue, balanced.missed, attributed.fresh first]
  rfl

/-- A frame that is held back leaves the accounts as they are. -/
theorem ledger_of_held (run : link.run ops = .ok (last, calls))
    (held : last.commands.tick.1 = false) :
    link.ledger (ops ++ [.endFrame]) = link.ledger ops ∧
      last.endFrame.1.counters = last.counters := by
  have ended : last.endFrame = ({ last with commands := last.commands.tick.2 }, []) :=
    endFrame_of_held (Prod.ext held rfl)
  refine ⟨?_, by rw [ended]⟩
  have step : last.step .endFrame = .ok ({ last with commands := last.commands.tick.2 }, []) :=
    congrArg Except.ok ended
  rw [ledger_concat run step, note_of_ne (by simp), List.append_nil]

end Accounts

/-- With telemetry, every capture that was handed over is decoded, found damaged or waits. Where
every frame begins before it ends, a channel is started at most once between two beginnings, and the
later one accounts for the start as a payload, a damaged capture or an overdue reply; the overdue
replies are counted, so nothing is missed by the first frame, by a frame that is held back or by a
motor without a channel. -/
theorem captures_and_starts_accounted {settings : MotorSettings} {timing : Timing}
    {answers : Nat → Except ClaimError Channel} (speaking : settings.telemetry = true)
    (fits : timing.Fits) :
    ∃ link init, connect settings timing answers = .ok (link, init) ∧
      (DistinctAnswers settings answers →
        ∀ ops, ∃ last calls, link.run ops = .ok (last, calls)) ∧
      ∀ ops last calls, link.run ops = .ok (last, calls) →
        last.counters.captured = last.counters.damaged +
          UInt32.ofNat ((link.ledger ops).settled.countP (·.reply.isValid)) +
            UInt32.ofNat last.waiting ∧
        last.counters.damaged =
          UInt32.ofNat ((link.ledger ops).settled.countP (·.reply.isDamaged)) ∧
        (Paced ops →
          (∀ motor channel, link.wiring.channel? motor = some channel →
            ((link.ledger ops).settledWith motor).length = ops.count .beginFrame ∧
            calls.countP (Call.startsChannel channel) =
              (((link.ledger ops).settledWith motor).map Settlement.starts).sum +
                (link.ledger ops).recent.countP (Call.startsChannel channel)) ∧
          (∀ settlement ∈ (link.ledger ops).settled,
            link.isConnected settlement.motor = true ∧ settlement.starts ≤ 1 ∧
            (settlement.starts = 1 → settlement.reply.isValid = true ∨
              settlement.reply.isDamaged = true ∨ settlement.reply.isOverdue = true) ∧
            (settlement.starts = 0 → settlement.reply.isOverdue = false)) ∧
          last.counters.missed = UInt32.ofNat
            (((link.ledger ops).settled.filter (·.reply.isMissing)).map Settlement.starts).sum ∧
          (.beginFrame ∉ ops → last.beginFrame.1.counters.missed = 0) ∧
          (last.commands.tick.1 = false →
            link.ledger (ops ++ [.endFrame]) = link.ledger ops ∧
            last.endFrame.1.counters = last.counters)) := by
  rcases connect_of_fits fits settings answers with ⟨micros, connected⟩
  rcases balanced_of_connect fits connected with ⟨start, nodup, telemetry⟩
  refine ⟨_, _, connected, ?_, ?_⟩
  · intro distinct ops
    rcases exists_connect distinct fits with ⟨_, _, again, fresh⟩
    cases again.symm.trans connected
    rcases exists_run fresh.sound ops with ⟨last, calls, ran, _⟩
    exact ⟨last, calls, ran⟩
  intro ops last calls ran
  have balanced := start.run (telemetry.trans speaking) nodup ran
  have attributed := attributed_run nodup ran
  have lastSpeaking : last.telemetry = true :=
    (congrArg Wiring.telemetry (wiring_run ran)).trans (telemetry.trans speaking)
  refine ⟨?_, balanced.damaged, ?_⟩
  · rw [balanced.captured, balanced.damaged, UInt32.ofNat_add, UInt32.ofNat_add]
  intro paced
  have single := attributed.single paced
  refine ⟨fun motor channel wired => ⟨attributed.frames wired, attributed.starts wired⟩, ?_, ?_,
    ?_, ?_⟩
  · intro settlement settlementMem
    have overdue := balanced.overdue settlement settlementMem
    refine ⟨?_, single settlement settlementMem, ?_, ?_⟩
    · rcases Option.isSome_iff_exists.mp (attributed.connected settlement settlementMem) with
        ⟨channel, wired⟩
      rcases exists_motor?_of_channel? wired with ⟨state, found, _⟩
      exact Option.isSome_iff_exists.mpr ⟨state, found⟩
    · intro started
      have due : settlement.reply.isOverdue = settlement.reply.isMissing := by
        simpa [started] using overdue
      rw [due]
      exact settlement.reply.valid_or_damaged_or_missing
    · intro unstarted
      simpa [unstarted] using overdue
  · rw [balanced.missed, sum_starts_missing balanced.overdue single]
  · exact missed_of_first balanced lastSpeaking attributed paced
  · exact ledger_of_held ran

/-- After one frame motor 0 gives a reply, motor 2 a damaged one and motor 3 none. -/
theorem captures_and_starts_accounted_of_three_motors :
    ∃ link init last calls,
      connect {} {} (Bench.inOrder [(1, .noTimer)]).answer = .ok (link, init) ∧
      link.run (frameOps 4 (fun _ => 100) ++ [.transferDone 0 .nothing,
        .transferDone 0 (.ofWords (Protocol.dshot600.encoding.edges (Packet.reply 291 0) 7)),
        .transferDone 2 .nothing, .transferDone 2 (.ofWords [5]), .beginFrame]) =
          .ok (last, calls) ∧
      last.counters.captured = last.counters.damaged + 1 ∧ last.counters.damaged = 1 ∧
      last.counters.missed = 1 := by
  have fits : Timing.Fits {} := by decide
  rcases @captures_and_starts_accounted {} {} (Bench.inOrder [(1, .noTimer)]).answer rfl fits with
    ⟨link, init, connected, runs, accounts⟩
  rcases runs (Bench.distinctAnswers_inOrder [(1, .noTimer)] {}) (frameOps 4 (fun _ => 100) ++
    [.transferDone 0 .nothing,
      .transferDone 0 (.ofWords (Protocol.dshot600.encoding.edges (Packet.reply 291 0) 7)),
      .transferDone 2 .nothing, .transferDone 2 (.ofWords [5]), .beginFrame]) with
    ⟨last, calls, ran⟩
  rcases accounts _ last calls ran with ⟨captured, damaged, paced⟩
  rcases paced (by decide) with ⟨_, _, missed, _, _⟩
  refine ⟨link, init, last, calls, connected, ran, ?_, ?_, ?_⟩
  · rw [captured]
    cases connected
    cases ran
    rfl
  · rw [damaged]
    cases connected
    cases ran
    rfl
  · rw [missed]
    cases connected
    cases ran
    rfl

end Link

end Rotor

import Mathlib.Data.List.Forall2
import Rotor.Loop
import Rotor.Proofs.Link.Agreement
import Rotor.Proofs.Link.Losses

/-!
# Damaged replies in the control loop

A lap is a turn of the control loop with everything that comes in after it: transfers complete in any
order and number, and commands are queued. This file runs laps twice, once with all replies and once
without some of them, and compares what the loop gets out of them. A reply that is damaged leaves no
trace that a missing one would not leave, neither in the filter nor in the link, save for its
mailboxes and for the counters of captures and replies.
-/

namespace Rotor

namespace Loop

/-- What happens in one lap of the control loop. -/
structure Lap where
  throttles : Nat → UInt16
  /-- The transfers that complete after the turn, and the commands that are queued. -/
  asides : List Link.Op
  /-- The gyro samples, one for each axis. -/
  samples : List Float32
  /-- The motors whose replies do not come. -/
  lost : Nat → Bool

/-- The lap with all replies. -/
def Lap.complete (lap : Lap) : Lap :=
  { lap with lost := fun _ => false }

/-- After the turn of a lap nothing but transfers and commands comes in, and the hardware writes the
words that it counts. -/
structure Lap.Proper (encoding : Encoding) (lap : Lap) : Prop where
  asides : ∀ op ∈ lap.asides, op.isAside = true
  honest : ∀ motor capture, .transferDone motor capture ∈ lap.asides →
    capture.Honest encoding.captureLength

/-- Performs one lap, without the replies that are lost. -/
def lap (loop : Loop) (lap : Lap) : Except Fault Round := do
  let (turned, sent) ← loop.turn lap.throttles
  let (link, received) ← turned.link.run (turned.link.withoutReplies lap.lost lap.asides)
  let (gyro, dterm, last) := { turned with link }.pass lap.samples
  return { loop := last, gyro, dterm, calls := sent ++ received }

/-- Performs laps one after the other. -/
def laps (loop : Loop) : List Lap → Except Fault (List Round)
  | [] => .ok []
  | lap :: rest => do
    let round ← loop.lap lap
    let rounds ← round.loop.laps rest
    return round :: rounds

/-- In a run with all replies, those that are marked as lost are damaged replies to frames that were
sent. -/
def LosesGarbled (loop : Loop) : List Lap → Prop
  | [] => True
  | lap :: rest =>
    (∀ turned sent, loop.turn lap.throttles = .ok (turned, sent) →
      Link.Garbled lap.lost turned.link sent lap.asides) ∧
    ∀ round, loop.lap lap.complete = .ok round → round.loop.LosesGarbled rest

/-- Two rounds that nobody can tell apart: their outputs and filters are the same, and their links
differ in nothing but mailboxes and the counters of captures and replies. -/
structure Round.Same (one other : Round) : Prop where
  gyro_eq : one.gyro = other.gyro
  dterm_eq : one.dterm = other.dterm
  filter_eq : one.loop.filter = other.loop.filter
  telemetryOf_eq : ∀ motor, one.loop.link.telemetryOf motor = other.loop.link.telemetryOf motor
  valueOf_eq : ∀ motor, one.loop.link.valueOf motor = other.loop.link.valueOf motor
  direction_eq : ∀ motor, one.loop.link.direction motor = other.loop.link.direction motor
  hasCommand_eq : one.loop.link.hasCommand = other.loop.link.hasCommand
  flips_eq : one.loop.link.counters.flips = other.loop.link.counters.flips
  link_eq : Link.outwardView.of one.loop.link = Link.outwardView.of other.loop.link

variable {loop one other : Loop} {lap : Lap} {encoding : Encoding}

section Laps

/-- The operations of the turn of a lap after its frame has begun. -/
def staging (loop : Loop) (lap : Lap) : List Link.Op :=
  Link.writeOps loop.link.beginFrame.1.motorCount lap.throttles ++ [.endFrame]

/-- The loop after a turn, `turned` being what became of its link. -/
def turnedTo (loop : Loop) (turned : Link) : Loop where
  link := turned
  filter := loop.filter.update loop.link.beginFrame.1.telemetryOf

theorem turn_eq (loop : Loop) (lap : Lap) :
    loop.turn lap.throttles = loop.link.beginFrame.1.run (loop.staging lap) >>= fun sent =>
      .ok (loop.turnedTo sent.1, loop.link.beginFrame.2 ++ sent.2) :=
  rfl

theorem lap_eq (loop : Loop) (lap : Lap) :
    loop.lap lap = loop.link.beginFrame.1.run (loop.staging lap) >>= fun sent =>
      sent.1.run (sent.1.withoutReplies lap.lost lap.asides) >>= fun received =>
        let passed := (loop.turnedTo received.1).pass lap.samples
        .ok {
          loop := passed.2.2
          gyro := passed.1
          dterm := passed.2.1
          calls := loop.link.beginFrame.2 ++ sent.2 ++ received.2 } := by
  unfold Loop.lap
  rw [turn_eq, bind_assoc]
  rfl

theorem mem_staging {op : Link.Op} (opMem : op ∈ loop.staging lap) :
    (∃ motor throttle, op = .write motor throttle) ∨ op = .endFrame := by
  rcases List.mem_append.mp opMem with write | ends
  · rcases List.mem_map.mp write with ⟨motor, _, rfl⟩
    exact .inl ⟨motor, _, rfl⟩
  · exact .inr (List.mem_singleton.mp ends)

/-- Rounds that end with the same outputs, the same filter and twin links are the same. -/
theorem same_of_twins {round otherRound : Round} (gyro : round.gyro = otherRound.gyro)
    (dterm : round.dterm = otherRound.dterm) (filter : round.loop.filter = otherRound.loop.filter)
    (twins : Link.Twins round.loop.link otherRound.loop.link) : round.Same otherRound := by
  have motors (motor : Nat) := Link.View.map_motor?_of_same twins.now motor
  refine ⟨gyro, dterm, filter, ?_, ?_, ?_, ?_, ?_, twins.now⟩
  · intro motor
    have telemetry := congrArg (Option.bind · MotorState.telemetry) (motors motor)
    simpa [Link.telemetryOf, Link.outwardView, Option.bind_map, Function.comp_def] using telemetry
  · intro motor
    have value := congrArg (Option.map MotorState.value) (motors motor)
    simpa [Link.valueOf, Link.outwardView, Function.comp_def] using value
  · exact Link.direction_of_outward twins.now
  · exact congrArg (·.hasCommand) twins.now
  · exact congrArg (·.counters.flips) twins.now

/-- What samples come out as, and what becomes of the filter, goes by the filter. -/
theorem pass_congr (filter : one.filter = other.filter) (samples : List Float32) :
    (one.pass samples).1 = (other.pass samples).1 ∧
      (one.pass samples).2.1 = (other.pass samples).2.1 ∧
      (one.pass samples).2.2.filter = (other.pass samples).2.2.filter := by
  unfold pass
  rw [filter]
  exact ⟨rfl, rfl, rfl⟩

/-- The calls that begin a frame start nothing. -/
theorem garbled_of_turn {link turned : Link} {lost : Nat → Bool} {sent : List Call}
    {ops : List Link.Op} (garbled : Link.Garbled lost turned (link.beginFrame.2 ++ sent) ops) :
    Link.Garbled lost turned sent ops := by
  intro motor channel isLost wired
  have quiet : link.beginFrame.2.any (Call.startsChannel channel) = false := by
    rw [List.any_eq_false]
    intro call callMem
    simp [Call.startsChannel_of_quiet (Link.quiet_beginFrame link call callMem)]
  simpa [List.any_append, quiet] using garbled motor channel isLost wired

/-- A lap without the replies that are lost is the same as one in which they are damaged. -/
theorem lap_alike (filter : one.filter = other.filter) (twins : Link.Twins one.link other.link)
    (proper : lap.Proper one.link.encoding)
    (garbled : ∀ turned sent, one.turn lap.throttles = .ok (turned, sent) →
      Link.Garbled lap.lost turned.link sent lap.asides) :
    Alike (fun round otherRound => round.Same otherRound ∧
        Link.Twins round.loop.link otherRound.loop.link ∧
        round.loop.link.encoding = one.link.encoding)
      (one.lap lap.complete) (other.lap lap) := by
  have telemetry : one.link.beginFrame.1.telemetryOf = other.link.beginFrame.1.telemetryOf := by
    funext motor
    have motors := congrArg (Option.bind · MotorState.telemetry)
      (Link.View.map_motor?_of_same twins.begun motor)
    simpa [Link.telemetryOf, Link.outwardView, Option.bind_map, Function.comp_def] using motors
  have count : one.link.beginFrame.1.motorCount = other.link.beginFrame.1.motorCount := by
    rw [← Link.View.motorCount_of Link.outwardView, twins.begun, Link.View.motorCount_of]
  have sameStaging : other.staging lap = one.staging lap := by
    rw [staging, ← count]
    rfl
  have sent := Alike.iff_map_eq.mpr (twins.frame fun op => @mem_staging one lap op)
  rw [lap_eq, lap_eq, sameStaging]
  apply sent.bind_of_eq
  rintro ⟨turned, calls⟩ ⟨otherTurned, otherCalls⟩ ran otherRan _
  have wiring : turned.wiring = one.link.wiring := by
    rw [Link.wiring_run ran, Link.wiring_beginFrame]
  have encoding : turned.encoding = one.link.encoding := congrArg Wiring.encoding wiring
  have turn : one.turn lap.throttles =
      .ok (one.turnedTo turned, one.link.beginFrame.2 ++ calls) := by
    rw [turn_eq]
    exact congrArg (· >>= _) ran
  rcases twins.endAlike (fun op => @mem_staging one lap op) ran otherRan proper.asides
    (encoding ▸ proper.honest) (garbled_of_turn (garbled _ _ turn)) with
    ⟨last, made, otherLast, otherMade, ranAsides, otherRanAsides, twinsLast⟩
  have all : turned.withoutReplies lap.complete.lost lap.complete.asides = lap.asides :=
    turned.withoutReplies_none lap.asides
  rw [all, ranAsides, otherRanAsides]
  have sameFilter : (one.turnedTo last).filter = (other.turnedTo otherLast).filter := by
    simp only [turnedTo, filter, telemetry]
  rcases pass_congr sameFilter lap.samples with ⟨gyro, dterm, passed⟩
  refine .done ⟨same_of_twins gyro dterm passed twinsLast, twinsLast, ?_⟩
  exact congrArg Wiring.encoding ((Link.wiring_run ranAsides).trans wiring)

/-- Laps without the replies that are lost are the same as laps in which they are damaged. -/
theorem laps_alike {laps : List Lap} (filter : one.filter = other.filter)
    (twins : Link.Twins one.link other.link) (sameEncoding : one.link.encoding = encoding)
    (proper : ∀ lap ∈ laps, lap.Proper encoding) (garbled : one.LosesGarbled laps) :
    Alike (List.Forall₂ Round.Same) (one.laps (laps.map Lap.complete)) (other.laps laps) := by
  induction laps generalizing one other with
  | nil => exact .done .nil
  | cons lap rest ih =>
      rw [List.forall_mem_cons] at proper
      rw [List.map_cons, Loop.laps, Loop.laps]
      apply (lap_alike filter twins (sameEncoding ▸ proper.1) garbled.1).bind_of_eq
      rintro round otherRound ran _ ⟨same, twinsAfter, encodingAfter⟩
      apply (ih same.filter_eq twinsAfter (encodingAfter.trans sameEncoding) proper.2
        (garbled.2 round ran)).bind
      intro rounds otherRounds sameRest
      exact .done (.cons same sameRest)

end Laps

/-- A damaged reply is treated as a missing one. Two runs of the control loop with the same settings,
throttles, commands, samples and completed transfers may differ in replies to frames that were sent:
where one run gets a reply that cannot be decoded, the other gets none. After every lap both have
given the same outputs, and filters and links are the same; only mailboxes and the counters of
captures and replies may differ. -/
theorem damaged_reply_like_missing {settings : MotorSettings} {timing : Timing}
    {answers : Nat → Except ClaimError Channel} (fits : timing.Fits) :
    ∃ link init, Link.connect settings timing answers = .ok (link, init) ∧
      ∀ (earlier : List Link.Op) (start : Link) (before : List Call),
        link.run earlier = .ok (start, before) → ∀ (filter : Filter) (laps : List Lap),
          (∀ lap ∈ laps, lap.Proper settings.protocol.encoding) →
          Loop.LosesGarbled { link := start, filter } laps →
            Alike (List.Forall₂ Round.Same)
              (Loop.laps { link := start, filter } (laps.map Lap.complete))
              (Loop.laps { link := start, filter } laps) := by
  rcases Link.exists_initial fits settings answers with ⟨link, init, connected, initial, _⟩
  refine ⟨link, init, connected, ?_⟩
  intro earlier start before ran filter laps proper garbled
  have wiring := Link.wiring_run ran
  have nodup : start.wiring.timers.Nodup := by
    rw [wiring]
    exact initial.nodup
  have encoding : start.encoding = settings.protocol.encoding :=
    (congrArg Wiring.encoding wiring).trans initial.encoding_eq
  have mailboxes := Link.soundMailboxes_run initial.soundMailboxes ran
  exact laps_alike rfl (Link.Twins.refl nodup mailboxes) encoding proper garbled

/-- A single motor gives a damaged reply to the first frame, and a valid one to the second. -/
theorem damaged_reply_like_missing_of_one_motor :
    let laps : List Lap := [
      { throttles := fun _ => 100
        asides := [.transferDone 0 .nothing, .transferDone 0 (.ofWords [5])]
        samples := [1, 2, 3]
        lost := fun motor => motor == 0 },
      { throttles := fun _ => 200
        asides := [.transferDone 0 .nothing,
          .transferDone 0 (.ofWords (Protocol.dshot600.encoding.edges (Packet.reply 291 0) 7))]
        samples := [2, 3, 4]
        lost := fun _ => false }]
    ∃ link init filter,
      Link.connect { motorCount := 1 } {} (Bench.inOrder []).answer = .ok (link, init) ∧
      Filter.new {} { motorCount := 1 } {} = .ok filter ∧
      Alike (List.Forall₂ Round.Same) (Loop.laps { link, filter } (laps.map Lap.complete))
        (Loop.laps { link, filter } laps) := by
  intro laps
  have fits : Timing.Fits {} := by decide
  have built : Filter.new {} { motorCount := 1 } {} =
    .ok ((Filter.ofSettings {} { motorCount := 1 } {} 125).moveCursor .start) := rfl
  rcases damaged_reply_like_missing fits with ⟨link, init, connected, runs⟩
  refine ⟨link, init, _, connected, built, runs [] link [] rfl _ laps ?_ ?_⟩
  · intro lap lapMem
    simp only [laps, List.mem_cons, List.not_mem_nil, or_false] at lapMem
    rcases lapMem with rfl | rfl
    all_goals
      refine ⟨by simp [Link.Op.isAside], ?_⟩
      intro motor capture handled
      simp only [List.mem_cons, Link.Op.transferDone.injEq, List.not_mem_nil, or_false] at handled
      rcases handled with ⟨_, rfl⟩ | ⟨_, rfl⟩ <;> decide
  · cases connected
    have nobody (turned : Link) (sent : List Call) (ops : List Link.Op) :
        Link.Garbled (fun _ => false) turned sent ops := by
      intro motor channel isLost
      simp at isLost
    refine ⟨?_, fun _ _ => ⟨fun _ _ _ => nobody _ _ _, fun _ _ => trivial⟩⟩
    intro turned sent turn motor channel isLost wired
    obtain rfl : motor = 0 := by simpa using isLost
    cases turn
    obtain rfl : channel = ⟨⟨0⟩, 0⟩ := Option.some.inj (wired.symm.trans rfl)
    refine ⟨rfl, ?_⟩
    intro capture delivered
    obtain rfl : capture = .ofWords [5] := Option.some.inj (delivered.symm.trans rfl)
    decide

end Loop

end Rotor

import Rotor.Proofs.Link.Connected
import Rotor.Proofs.Link.Replies
import Rotor.Proofs.Link.Staging

/-!
# Where telemetry comes from

Between two beginnings of a frame a motor can hear several completed captures, in any order with the
other operations. `Link.deliveries` lists those that reach it. `Link.HeardSince` says what is known
of a motor meanwhile: its mailbox holds the first of them, and it owes a reply as soon as its
channel was started. The next beginning of a frame then finds exactly that.
-/

namespace Rotor

namespace Link

variable {link start next last : Link} {op : Op} {ops : List Op} {calls made : List Call}
  {motor : Nat} {state first : MotorState}

/-- The capture that an operation hands over to a motor: that of a completed transfer while the
channel of the motor listens. -/
def delivery? (link : Link) (motor : Nat) : Op → Option Capture
  | .transferDone other capture =>
      if other = motor ∧ link.direction motor = some .input then some capture else none
  | _ => none

/-- The captures that are handed over to a motor in the course of operations. -/
def deliveries (link : Link) (motor : Nat) : List Op → List Capture
  | [] => []
  | op :: rest =>
    (link.delivery? motor op).toList ++
      match link.step op with
      | .ok (next, _) => deliveries next motor rest
      | .error _ => []

/-- A capture is handed over at one of the operations, when the channel of its motor listens. -/
theorem exists_split_of_mem_deliveries {capture : Capture}
    (delivered : capture ∈ link.deliveries motor ops) :
    ∃ front rest mid calls, ops = front ++ .transferDone motor capture :: rest ∧
      link.run front = .ok (mid, calls) ∧ mid.direction motor = some .input := by
  induction ops generalizing link with
  | nil => simp [deliveries] at delivered
  | cons op rest ih =>
      rw [deliveries, List.mem_append] at delivered
      rcases delivered with now | later
      · cases op with
        | transferDone other otherCapture =>
            simp only [delivery?, Option.mem_toList, Option.ite_none_right_eq_some,
              Option.some.injEq] at now
            rcases now with ⟨⟨rfl, listens⟩, rfl⟩
            exact ⟨[], rest, link, [], rfl, rfl, listens⟩
        | _ => simp [delivery?] at now
      · split at later
        · next next made step =>
          rcases ih later with ⟨front, after, mid, calls, rfl, run, listens⟩
          exact ⟨op :: front, after, mid, made ++ calls, rfl,
            run_cons_eq_ok_iff.mpr ⟨next, made, calls, step, run, rfl⟩, listens⟩
        · simp at later

theorem transferDone_mem_of_mem_deliveries {capture : Capture}
    (delivered : capture ∈ link.deliveries motor ops) : .transferDone motor capture ∈ ops := by
  rcases exists_split_of_mem_deliveries delivered with ⟨front, rest, _, _, rfl, _⟩
  exact List.mem_append_right _ List.mem_cons_self

theorem exists_motor?_of_mem_deliveries {capture : Capture}
    (delivered : capture ∈ link.deliveries motor ops) : ∃ state, link.motor? motor = some state := by
  rcases exists_split_of_mem_deliveries delivered with ⟨_, _, mid, _, _, run, listens⟩
  rcases Option.map_eq_some_iff.mp listens with ⟨state, found, _⟩
  have wired := channel?_wiring found
  rw [wiring_run run] at wired
  rcases exists_motor?_of_channel? wired with ⟨first, foundFirst, _⟩
  exact ⟨first, foundFirst⟩

theorem deliveries_concat (run : link.run ops = .ok (last, calls)) (motor : Nat) (op : Op) :
    link.deliveries motor (ops ++ [op]) =
      link.deliveries motor ops ++ (last.delivery? motor op).toList := by
  induction ops generalizing link calls with
  | nil =>
      cases run
      simp only [List.nil_append, deliveries]
      split <;> simp
  | cons first rest ih =>
      rcases run_cons_eq_ok_iff.mp run with ⟨next, made, more, step, later, rfl⟩
      simp only [List.cons_append, deliveries, step, ih later, List.append_assoc]

/-- What is known of a motor after some operations: `first` is what it was before them, `calls` are
those that were made, and `heard` are the captures that were handed over to it. -/
structure HeardSince (first : MotorState) (room : Nat) (calls : List Call) (heard : List Capture)
    (state : MotorState) : Prop where
  channel_eq : state.channel = first.channel
  telemetry_eq : state.telemetry = first.telemetry
  owesReply_eq : state.owesReply = calls.any (Call.startsChannel first.channel)
  carries : state.mailbox.Carries room heard

theorem HeardSince.of_sameMailbox {room : Nat} {heard : List Capture} {after : MotorState}
    (since : HeardSince first room calls heard state) (channel : after.channel = state.channel)
    (telemetry : after.telemetry = state.telemetry) (mailbox : after.mailbox = state.mailbox)
    (owesReply : after.owesReply =
      (state.owesReply || made.any (Call.startsChannel first.channel))) :
    HeardSince first room (calls ++ made) heard after :=
  ⟨channel.trans since.channel_eq, telemetry.trans since.telemetry_eq,
    by rw [owesReply, since.owesReply_eq, List.any_append], mailbox ▸ since.carries⟩

/-- A completed transfer hands its capture over to its own motor, if that listens. -/
theorem heardSince_transferDone {room : Nat} {heard : List Capture} (box : state.mailbox.Sound)
    (roomEq : link.encoding.captureLength = room) (found : link.motor? motor = some state)
    (since : HeardSince first room calls heard state) (target : Nat) (capture : Capture) :
    ∃ after, (link.transferDone target capture).1.motor? motor = some after ∧
      HeardSince first room (calls ++ (link.transferDone target capture).2)
        (heard ++ (link.delivery? motor (.transferDone target capture)).toList) after := by
  have noStart : (link.transferDone target capture).2.any
      (Call.startsChannel first.channel) = false := by
    simp only [List.any_eq_false]
    intro call callMem
    simp [Call.startsChannel_of_quiet (quiet_transferDone link target capture call callMem)]
  -- Whatever is neither a capture nor a flip of this motor leaves it as it was.
  have untouched (notHeard : link.delivery? motor (.transferDone target capture) = none) :
      HeardSince first room (calls ++ (link.transferDone target capture).2)
        (heard ++ (link.delivery? motor (.transferDone target capture)).toList) state := by
    rw [notHeard, Option.toList_none, List.append_nil]
    exact since.of_sameMailbox rfl rfl rfl (by simp [noStart])
  cases targetFound : link.motor? target with
  | none =>
      have differ : target ≠ motor := by
        rintro rfl
        simp [targetFound] at found
      refine ⟨state, ?_, untouched (by simp [delivery?, differ])⟩
      rwa [transferDone_of_absent targetFound]
  | some targetState =>
      cases direction : targetState.direction with
      | input =>
          rw [motor?_transferDone_of_input targetFound direction]
          by_cases same : target = motor
          · subst same
            obtain rfl : targetState = state := by simpa [targetFound] using found
            have listens : link.direction target = some .input := by
              simp [Link.direction, found, direction]
            refine ⟨_, if_pos rfl, since.channel_eq, since.telemetry_eq, ?_, ?_⟩
            · rw [List.any_append, noStart, Bool.or_false]
              exact since.owesReply_eq
            · simp only [delivery?, listens, and_self, if_true, Option.toList_some]
              rw [roomEq]
              exact Mailbox.carries_deposit box since.carries capture
          · rw [if_neg same]
            exact ⟨state, found, untouched (by simp [delivery?, same])⟩
      | output =>
          have notHeard : link.delivery? motor (.transferDone target capture) = none := by
            simp only [delivery?, ite_eq_right_iff, reduceCtorEq, imp_false, not_and]
            rintro rfl
            simp [Link.direction, targetFound, direction]
          rw [motor?_transferDone_of_output targetFound direction, found]
          refine ⟨_, rfl, ?_⟩
          dsimp only
          split
          · rw [notHeard, Option.toList_none, List.append_nil]
            exact since.of_sameMailbox rfl rfl rfl (by simp [noStart, MotorState.flip])
          · exact untouched notHeard

/-- Every operation but the beginning of a frame keeps what is known of a motor. -/
theorem heardSince_effect {room : Nat} {heard : List Capture}
    (nodup : link.wiring.timers.Nodup) (box : state.mailbox.Sound)
    (speaking : link.telemetry = true) (roomEq : link.encoding.captureLength = room)
    (found : link.motor? motor = some state) (since : HeardSince first room calls heard state)
    (effect : link.Effect op next made) (sameFrame : op ≠ .beginFrame) :
    ∃ after, next.motor? motor = some after ∧
      HeardSince first room (calls ++ made)
        (heard ++ (link.delivery? motor op).toList) after := by
  cases effect with
  | beginFrame => exact absurd rfl sameFrame
  | writeAbsent throttle absent =>
      exact ⟨state, found, by simpa [delivery?] using since⟩
  | write throttle targetFound =>
      rename_i target targetState
      have noStart : (if link.burst then [] else
          [Call.load targetState.channel (link.wordsFor target throttle)]).any
            (Call.startsChannel first.channel) = false := by
        split <;> simp [Call.startsChannel]
      rw [motor?_staged, found]
      simp only [delivery?, Option.toList_none, List.append_nil]
      split
      · exact ⟨_, rfl, since.of_sameMailbox rfl rfl rfl (by simp [noStart])⟩
      · exact ⟨_, rfl, since.of_sameMailbox rfl rfl rfl (by simp [noStart])⟩
  | endHeld held =>
      exact ⟨state, found, by simpa [delivery?] using since⟩
  | endReleased released =>
      rename_i commands
      have due : ({ link with commands } : Link).isDue state.channel =
          (fire { link with commands }).2.any (Call.startsChannel state.channel) :=
        isDue_eq_any_startsChannel nodup _
      rw [motor?_fire]
      simp only [delivery?, Option.toList_none, List.append_nil]
      refine ⟨_, congrArg _ found, since.of_sameMailbox rfl rfl rfl ?_⟩
      dsimp only
      rw [due, speaking, since.channel_eq, Bool.true_and]
  | transferDone target capture =>
      exact heardSince_transferDone box roomEq found since target capture
  | send target command =>
      exact ⟨state, found, by simpa [delivery?] using since⟩

/-- The telemetry that the next frame finds: what the first capture decodes to, and without one
nothing where the motor was started, and else what was there before. -/
theorem HeardSince.telemetry_begin {encoding : Encoding} {heard : List Capture}
    (since : HeardSince first encoding.captureLength calls heard state)
    (honest : ∀ capture ∈ heard, capture.Honest encoding.captureLength) :
    (state.begin encoding).telemetry =
      match heard.head? with
      | some capture => encoding.decode (capture.words.take capture.count)
      | none =>
        if calls.any (Call.startsChannel first.channel) then none else first.telemetry := by
  have carries := since.carries
  cases heard with
  | nil =>
      rw [MotorState.telemetry_begin_of_empty carries, since.owesReply_eq, since.telemetry_eq]
      rfl
  | cons capture later =>
      rcases carries with ⟨box, boxSound, boxEmpty, mailbox⟩
      exact MotorState.telemetry_begin_of_deposit boxSound boxEmpty
        (honest capture List.mem_cons_self).written mailbox

/-- Nothing is known yet of a motor for which nothing is under way. -/
theorem heardSince_start (empty : state.mailbox.phase = .empty) (settled : state.owesReply = false)
    (room : Nat) : HeardSince state room [] [] state :=
  ⟨rfl, rfl, by simpa using settled, empty⟩

/-- Until the next frame begins, a motor keeps what was handed over to it. -/
theorem HeardSince.run {room : Nat} {heard : List Capture}
    (since : HeardSince first room calls heard state)
    (nodup : start.wiring.timers.Nodup) (mailboxes : start.SoundMailboxes)
    (speaking : start.telemetry = true) (roomEq : start.encoding.captureLength = room)
    (found : start.motor? motor = some state) (sameFrame : ∀ op ∈ ops, op ≠ .beginFrame)
    (run : start.run ops = .ok (last, made)) :
    ∃ after, last.motor? motor = some after ∧
      HeardSince first room (calls ++ made) (heard ++ start.deliveries motor ops) after := by
  refine step_induction (motive := fun ops mid made => (∀ op ∈ ops, op ≠ .beginFrame) →
    ∃ after, mid.motor? motor = some after ∧
      HeardSince first room (calls ++ made) (heard ++ start.deliveries motor ops) after)
    ?_ ?_ run sameFrame
  · intro _
    exact ⟨state, found, by simpa [deliveries] using since⟩
  · intro ops mid made op next more ran step earlier sameFrame
    rcases earlier (fun op opMem => sameFrame op (by simp [opMem])) with ⟨before, midFound, known⟩
    have wiring := wiring_run ran
    rw [deliveries_concat ran, ← List.append_assoc, ← List.append_assoc]
    refine heardSince_effect ?_ (soundMailboxes_run mailboxes ran motor before midFound) ?_ ?_
      midFound known (effect_of_step step) (sameFrame op (by simp))
    · rw [wiring]
      exact nodup
    · exact (congrArg Wiring.telemetry wiring).trans speaking
    · exact (congrArg (·.encoding.captureLength) wiring).trans roomEq

/-- Until the next frame begins, a motor without a reply keeps what was handed over to it. -/
theorem heardSince_run (sound : start.Sound) (speaking : start.telemetry = true)
    (found : start.motor? motor = some first) (empty : first.mailbox.phase = .empty)
    (settled : first.owesReply = false) (sameFrame : ∀ op ∈ ops, op ≠ .beginFrame)
    (run : start.run ops = .ok (last, calls)) :
    ∃ state, last.motor? motor = some state ∧
      HeardSince first start.encoding.captureLength calls (start.deliveries motor ops) state :=
  (heardSince_start empty settled _).run sound.wiring.nodup sound.soundMailboxes speaking rfl found
    sameFrame run

/-- Nothing is under way for any motor. -/
def Settled (link : Link) : Prop :=
  ∀ motor state, link.motor? motor = some state →
    state.mailbox.phase = .empty ∧ state.owesReply = false

theorem settled_of_fresh {settings : MotorSettings} {answers : Nat → Except ClaimError Channel}
    (fresh : link.Fresh settings answers) : link.Settled := by
  intro motor state found
  rcases fresh.fresh_motor found with ⟨channel, _, rfl⟩
  exact ⟨rfl, rfl⟩

theorem settled_of_initial {settings : MotorSettings}
    {answers : Nat → Except ClaimError Channel} (initial : link.Initial settings answers) :
    link.Settled := by
  intro motor state found
  rw [(initial.answered found).2.2]
  exact ⟨rfl, rfl⟩

/-- The beginning of a frame settles with every motor. -/
theorem settled_beginFrame (speaking : link.telemetry = true) (mailboxes : link.SoundMailboxes) :
    link.beginFrame.1.Settled := by
  intro motor state found
  rw [motor?_beginFrame speaking] at found
  rcases Option.map_eq_some_iff.mp found with ⟨before, foundBefore, rfl⟩
  exact ⟨MotorState.phase_begin (mailboxes motor before foundBefore) _, rfl⟩

/-- Before its first operation and whenever a frame has just begun, a link is settled. -/
theorem settled_of_boundary {earlier : List Op} (settled : link.Settled)
    (mailboxes : link.SoundMailboxes) (speaking : link.telemetry = true)
    (boundary : earlier = [] ∨ earlier.getLast? = some .beginFrame)
    (run : link.run earlier = .ok (start, calls)) : start.Settled := by
  rcases boundary with rfl | lastBegins
  · cases run
    exact settled
  · rcases List.getLast?_eq_some_iff.mp lastBegins with ⟨front, rfl⟩
    rcases run_append_eq_ok_iff.mp run with ⟨before, _, _, ran, single, _⟩
    rcases run_cons_eq_ok_iff.mp single with ⟨_, _, _, step, done, _⟩
    cases done
    obtain rfl : before.beginFrame.1 = start := congrArg Prod.fst (Except.ok.inj step)
    have stillSpeaking := (congrArg Wiring.telemetry (wiring_run ran)).trans speaking
    exact settled_beginFrame stillSpeaking (soundMailboxes_run mailboxes ran)

/-- The mailbox of a motor that nothing was handed over to is empty. -/
theorem phase_of_unheard {settings : MotorSettings} {answers : Nat → Except ClaimError Channel}
    {link : Link} {earlier recent : List Op} {before : List Call}
    (fresh : link.Fresh settings answers) (speaking : settings.telemetry = true)
    (boundary : earlier = [] ∨ earlier.getLast? = some .beginFrame)
    (ranEarlier : link.run earlier = .ok (start, before))
    (sameFrame : ∀ op ∈ recent, op ≠ .beginFrame)
    (ranRecent : start.run recent = .ok (last, calls))
    (unheard : start.deliveries motor recent = []) (found : last.motor? motor = some state) :
    state.mailbox.phase = .empty := by
  have sound := sound_run fresh.sound ranEarlier
  have configured := configured_of_wiring fresh.toConfigured (wiring_run ranEarlier)
  have wired := channel?_wiring found
  rw [wiring_run ranRecent] at wired
  rcases exists_motor?_of_channel? wired with ⟨first, firstFound, _⟩
  rcases settled_of_boundary (settled_of_fresh fresh) fresh.sound.soundMailboxes
    (fresh.telemetry_eq.trans speaking) boundary ranEarlier motor first firstFound with
    ⟨empty, settled⟩
  rcases heardSince_run sound (configured.telemetry_eq.trans speaking) firstFound empty settled
    sameFrame ranRecent with ⟨same, sameFound, since⟩
  obtain rfl : same = state := by simpa [found] using sameFound.symm
  have carries := since.carries
  rwa [unheard] at carries

/-- The telemetry of a motor changes only when a frame begins. It then is what the first capture
since the last beginning decodes to; where no capture was handed over it is nothing if the motor
was started since, and stays what it was if not. No capture is left over for the frame after. -/
theorem telemetry_provenance {settings : MotorSettings} {timing : Timing}
    {answers : Nat → Except ClaimError Channel} (speaking : settings.telemetry = true)
    (distinct : DistinctAnswers settings answers) (fits : timing.Fits) :
    ∃ link init, connect settings timing answers = .ok (link, init) ∧
      ∀ earlier recent : List Op, (earlier = [] ∨ earlier.getLast? = some .beginFrame) →
        (∀ op ∈ recent, op ≠ .beginFrame) →
        (∀ motor capture, .transferDone motor capture ∈ recent →
          capture.Honest settings.protocol.encoding.captureLength) →
          ∃ start before last calls,
            link.run earlier = .ok (start, before) ∧ start.run recent = .ok (last, calls) ∧
            ∀ motor channel, link.wiring.channel? motor = some channel →
              last.telemetryOf motor = start.telemetryOf motor ∧
              (last.beginFrame.1.telemetryOf motor =
                match (start.deliveries motor recent).head? with
                | some capture =>
                  settings.protocol.encoding.decode (capture.words.take capture.count)
                | none =>
                  if calls.any (Call.startsChannel channel) then none
                  else start.telemetryOf motor) ∧
              ∀ state, last.beginFrame.1.motor? motor = some state →
                state.mailbox.isFull = false := by
  rcases exists_connect distinct fits with ⟨link, init, connected, fresh⟩
  refine ⟨link, init, connected, ?_⟩
  intro earlier recent boundary sameFrame honest
  rcases exists_run fresh.sound earlier with ⟨start, before, ranEarlier, sound, startWiring⟩
  rcases exists_run sound recent with ⟨last, calls, ranRecent, lastSound, lastWiring⟩
  refine ⟨start, before, last, calls, ranEarlier, ranRecent, ?_⟩
  intro motor channel wired
  have startConfigured := configured_of_wiring fresh.toConfigured startWiring
  have lastConfigured := configured_of_wiring startConfigured lastWiring
  have startTelemetry := startConfigured.telemetry_eq.trans speaking
  have lastTelemetry := lastConfigured.telemetry_eq.trans speaking
  rw [← startWiring] at wired
  rcases exists_motor?_of_channel? wired with ⟨first, found, rfl⟩
  rcases settled_of_boundary (settled_of_fresh fresh) fresh.sound.soundMailboxes
    (fresh.telemetry_eq.trans speaking) boundary ranEarlier motor first found with ⟨empty, settled⟩
  rcases heardSince_run sound startTelemetry found empty settled sameFrame ranRecent with
    ⟨state, lastFound, since⟩
  rw [startConfigured.encoding_eq] at since
  have begun : last.beginFrame.1.motor? motor = some (state.begin settings.protocol.encoding) := by
    rw [motor?_beginFrame lastTelemetry, lastFound, lastConfigured.encoding_eq]
    rfl
  refine ⟨?_, ?_, ?_⟩
  · simp [telemetryOf, lastFound, found, since.telemetry_eq]
  · rw [telemetryOf, begun, Option.bind_some, since.telemetry_begin]
    · simp [telemetryOf, found]
    · intro capture delivered
      exact honest motor capture (transferDone_mem_of_mem_deliveries delivered)
  · intro after afterFound
    rw [begun] at afterFound
    cases afterFound
    simp [Mailbox.isFull, MotorState.phase_begin (lastSound.mailboxes lastFound)]

/-- Two captures reach motor 0 after the second frame, and the first of them is decoded. -/
theorem telemetry_provenance_of_two_captures :
    ∃ link init start before last calls,
      connect {} {} (Bench.inOrder [(1, .noTimer)]).answer = .ok (link, init) ∧
      link.run (frameOps 4 (fun _ => 100) ++ [.beginFrame]) = .ok (start, before) ∧
      start.run (writeOps 4 (fun _ => 200) ++ [.endFrame, .transferDone 0 .nothing,
        .transferDone 0 (.ofWords (Protocol.dshot600.encoding.edges (Packet.reply 291 0) 7)),
        .transferDone 0 (.ofWords [5])]) = .ok (last, calls) ∧
      start.telemetryOf 0 = none ∧ last.telemetryOf 0 = none ∧
      last.beginFrame.1.telemetryOf 0 = Protocol.dshot600.encoding.decode
        (Protocol.dshot600.encoding.edges (Packet.reply 291 0) 7) := by
  have fits : Timing.Fits {} := by decide
  rcases telemetry_provenance rfl (Bench.distinctAnswers_inOrder [(1, .noTimer)] {}) fits with
    ⟨link, init, connected, frames⟩
  have honest (motor : Nat) (capture : Capture)
      (handled : .transferDone motor capture ∈ writeOps 4 (fun _ => 200) ++ [.endFrame,
        .transferDone 0 .nothing,
        .transferDone 0 (.ofWords (Protocol.dshot600.encoding.edges (Packet.reply 291 0) 7)),
        .transferDone 0 (.ofWords [5])]) :
      capture.Honest Protocol.dshot600.encoding.captureLength := by
    simp only [writeOps, List.mem_append, List.mem_map, reduceCtorEq, and_false, exists_false,
      false_or, List.mem_cons, Op.transferDone.injEq, List.not_mem_nil, or_false] at handled
    rcases handled with ⟨_, rfl⟩ | ⟨_, rfl⟩ | ⟨_, rfl⟩ <;> decide
  rcases frames (frameOps 4 (fun _ => 100) ++ [.beginFrame]) _ (by decide) (by decide) honest with
    ⟨start, before, last, calls, ranEarlier, ranRecent, motors⟩
  rcases motors 0 ⟨⟨0⟩, 0⟩ (by cases connected; rfl) with ⟨kept, begun, _⟩
  refine ⟨link, init, start, before, last, calls, connected, ranEarlier, ranRecent, ?_⟩
  cases connected
  cases ranEarlier
  cases ranRecent
  exact ⟨rfl, kept, begun⟩

end Link

end Rotor

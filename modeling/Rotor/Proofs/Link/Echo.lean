import Rotor.Proofs.Link.Bursts
import Rotor.Proofs.Link.Ledger
import Rotor.Proofs.Link.Provenance
import Rotor.Proofs.Wire.Echo

/-!
# A link and its own echo

Whatever a link stages with telemetry, it stages with the inverted checksum
(`Link.inverted_of_staged`). Loaded words are such a packet at once. A burst holds one in the lane
of every motor that was written before (`Link.Laned`): a write puts it there, and nothing but a later
write to the same lane replaces it. So a capture of anything that the link staged is damaged, for the
motor it comes from as well as for any other, and the next frame finds no telemetry in it.
-/

namespace Rotor

/-- Words that send a packet with the inverted checksum. -/
def Encoding.Inverted (encoding : Encoding) (words : List UInt32) : Prop :=
  ∃ value asksTelemetry, words = encoding.frame (Packet.make value asksTelemetry true)

namespace Link

variable {link start next last : Link} {op : Op} {ops : List Op} {calls made : List Call}
  {motor : Nat} {state : MotorState} {words : List UInt32}

/-- Words that operations stage: they are loaded for a channel, or a burst holds them in the lane of
a motor that was written before. -/
inductive Staged (link : Link) (ops : List Op) : List UInt32 → Prop
  | loaded {last : Link} {calls : List Call} {channel : Channel} {words : List UInt32}
      (run : link.run ops = .ok (last, calls)) (made : .load channel words ∈ calls) :
      Staged link ops words
  | inBurst {front rest : List Op} {mid : Link} {calls : List Call} {motor : Nat}
      {throttle : UInt16} {channel : Channel} {words : List UInt32}
      (split : ops = front ++ .endFrame :: rest) (run : link.run front = .ok (mid, calls))
      (written : .write motor throttle ∈ front) (wired : link.wiring.channel? motor = some channel)
      (made : .burst channel.timer words ∈ mid.endFrame.2) :
      Staged link ops (lane words channel.index.toNat)

section Staging

/-- With telemetry, the words for a motor carry the inverted checksum. -/
theorem inverted_wordsFor (speaking : link.telemetry = true) (motor : Nat) (throttle : UInt16) :
    link.encoding.Inverted (link.wordsFor motor throttle) := by
  unfold wordsFor packetFor
  rw [speaking]
  cases link.override? motor with
  | none => exact ⟨throttle, false, rfl⟩
  | some command => exact ⟨command, command ≠ 0, rfl⟩

/-- Only a write loads a channel. -/
theorem inverted_of_load (speaking : link.telemetry = true) (effect : link.Effect op next made)
    {channel : Channel} (loads : .load channel words ∈ made) : link.encoding.Inverted words := by
  cases effect with
  | beginFrame => cases quiet_beginFrame link _ loads
  | writeAbsent throttle absent => cases loads
  | write throttle found =>
      split at loads
      · cases loads
      · cases List.mem_singleton.mp loads
        exact inverted_wordsFor speaking _ throttle
  | endHeld held => cases loads
  | endReleased released =>
      rcases mem_calls_fire.mp loads with ⟨entry, _, starts⟩
      cases startedTimer?_of_startCall? starts
  | transferDone target capture => cases quiet_transferDone link target capture _ loads
  | send target command => cases loads

/-- Everything that a run loads carries the inverted checksum. -/
theorem inverted_of_load_run (speaking : link.telemetry = true)
    (run : link.run ops = .ok (last, calls)) {channel : Channel}
    (loads : .load channel words ∈ calls) : link.encoding.Inverted words := by
  refine step_induction (motive := fun _ _ calls => .load channel words ∈ calls →
    link.encoding.Inverted words) (by simp) ?_ run loads
  intro ops mid calls op next made ran step earlier loads
  have wiring := wiring_run ran
  rcases List.mem_append.mp loads with before | now
  · exact earlier before
  · have midSpeaking := (congrArg Wiring.telemetry wiring).trans speaking
    have inverted := inverted_of_load midSpeaking (effect_of_step step) now
    have encoding : mid.encoding = link.encoding := congrArg Wiring.encoding wiring
    rwa [encoding] at inverted

end Staging

section Lanes

/-- A burst holds an inverted packet in the lane of every motor that was written. -/
def Laned (link : Link) (ops : List Op) (calls : List Call) : Prop :=
  ∀ motor throttle channel, .write motor throttle ∈ ops →
    link.wiring.channel? motor = some channel →
      ∃ words, link.encoding.Inverted words ∧ link.Loaded calls channel words

/-- With bursts, a channel is ready by what is staged, whatever is called. -/
theorem loaded_of_burst (bursts : link.burst = true) (timers : next.timers = link.timers)
    (wiring : next.wiring = link.wiring) {channel : Channel}
    (loaded : link.Loaded calls channel words) (more : List Call) :
    next.Loaded more channel words := by
  have encoding : next.encoding = link.encoding := congrArg Wiring.encoding wiring
  have nextBursts : next.burst = true := (congrArg Wiring.burst wiring).trans bursts
  intro entry entryMem onTimer
  rw [timers] at entryMem
  simpa [nextBursts, bursts, encoding] using loaded entry entryMem onTimer

theorem laned_effect (bursts : link.burst = true) (speaking : link.telemetry = true)
    (fit : link.wiring.LanesFit) (buffers : link.RoomyBuffers) (laned : link.Laned ops calls)
    (effect : link.Effect op next made) : next.Laned (ops ++ [op]) (calls ++ made) := by
  have wiring := wiring_effect effect
  have encoding : next.encoding = link.encoding := congrArg Wiring.encoding wiring
  intro motor throttle channel written wired
  rw [encoding]
  rw [wiring] at wired
  rw [List.mem_append, List.mem_singleton] at written
  rcases timers_effect_of_burst bursts effect with ⟨timers, unconnected⟩ |
    ⟨target, value, state, rfl, found, rfl⟩
  · rcases written with before | now
    · rcases laned motor throttle channel before wired with ⟨words, inverted, loaded⟩
      exact ⟨words, inverted, loaded_of_burst bursts timers wiring loaded _⟩
    · rcases exists_motor?_of_channel? wired with ⟨state, found, _⟩
      cases found.symm.trans (unconnected motor throttle now.symm)
  · have stillBursts : (link.staged target value state.channel).burst = true := bursts
    -- Two motors may share a channel: their lane then holds the packet of the later write.
    by_cases same : state.channel = channel
    · subst same
      have loaded := loaded_staged_self buffers fit found value calls
      exact ⟨_, inverted_wordsFor speaking target value,
        loaded_of_burst stillBursts rfl rfl loaded _⟩
    · have before : .write motor throttle ∈ ops := by
        rcases written with before | now
        · exact before
        · cases now
          exact absurd (Option.some.inj ((channel?_wiring found).symm.trans wired)) same
      rcases laned motor throttle channel before wired with ⟨words, inverted, loaded⟩
      have kept : (link.staged target value state.channel).Loaded _ channel words :=
        loaded_staged_of_ne fit found wired same loaded
      exact ⟨words, inverted, loaded_of_burst stillBursts rfl rfl kept _⟩

theorem laned_run (bursts : link.burst = true) (speaking : link.telemetry = true)
    (fit : link.wiring.LanesFit) (buffers : link.RoomyBuffers)
    (run : link.run ops = .ok (last, calls)) : last.Laned ops calls := by
  have kept : last.RoomyBuffers ∧ last.Laned ops calls := by
    refine step_induction (motive := fun ops mid calls => mid.RoomyBuffers ∧ mid.Laned ops calls)
      ⟨buffers, by simp [Laned]⟩ ?_ run
    intro ops mid calls op next made ran step ⟨midBuffers, laned⟩
    have wiring := wiring_run ran
    have effect := effect_of_step step
    exact ⟨roomyBuffers_effect midBuffers effect,
      laned_effect ((congrArg Wiring.burst wiring).trans bursts)
        ((congrArg Wiring.telemetry wiring).trans speaking) (wiring ▸ fit) midBuffers laned effect⟩
  exact kept.2

end Lanes

/-- With telemetry, everything that a link stages carries the inverted checksum. -/
theorem inverted_of_staged (speaking : link.telemetry = true) (fit : link.wiring.LanesFit)
    (buffers : link.RoomyBuffers) (staged : link.Staged ops words) :
    link.encoding.Inverted words := by
  cases staged with
  | loaded run made => exact inverted_of_load_run speaking run made
  | @inBurst _ _ mid _ _ _ _ _ split run written wired made =>
      rcases burst_of_endFrame made with ⟨bursts, entry, entryMem, onTimer, _, rfl⟩
      have wiring := wiring_run run
      have linkBursts := (congrArg Wiring.burst wiring).symm.trans bursts
      have laned := laned_run linkBursts speaking fit buffers run
      rcases laned _ _ _ written (wiring ▸ wired) with ⟨words, inverted, loaded⟩
      have inLane := loaded entry entryMem onTimer
      have encoding : mid.encoding = link.encoding := congrArg Wiring.encoding wiring
      rw [if_pos bursts] at inLane
      rwa [inLane.2, ← encoding]

section Replies

/-- The number of the other motors with a channel that are as chosen. -/
def tallyBeside (link : Link) (motor : Nat) (chosen : MotorState → Bool) : Nat :=
  ((List.range link.motorCount).erase motor).countP fun other => (link.motor? other).any chosen

theorem tally_eq_succ {chosen : MotorState → Bool} (found : link.motor? motor = some state)
    (isChosen : chosen state = true) : link.tally chosen = link.tallyBeside motor chosen + 1 := by
  have isMotor : motor ∈ List.range link.motorCount :=
    List.mem_range.mpr (lt_motorCount_of_motor? found)
  rw [tally, (List.perm_cons_erase isMotor).countP_eq,
    List.countP_cons_of_pos (by simp [found, isChosen])]
  rfl

/-- A damaged reply is counted and leaves no telemetry. -/
theorem beginFrame_of_damaged {edges : List UInt32} (speaking : link.telemetry = true)
    (found : link.motor? motor = some state) (damaged : state.reply link.encoding = .damaged edges) :
    link.beginFrame.1.telemetryOf motor = none ∧
      link.beginFrame.1.counters.damaged = link.counters.damaged + 1 + UInt32.ofNat
        (link.tallyBeside motor fun state => (state.reply link.encoding).isDamaged) := by
  constructor
  · rw [telemetryOf, motor?_beginFrame speaking, found, Option.map_some, Option.bind_some,
      MotorState.begin, damaged]
    rfl
  · rw [(counters_beginFrame speaking).2.1, tally_eq_succ found (by rw [damaged]; rfl),
      Nat.add_comm, UInt32.ofNat_add, ← UInt32.add_assoc]
    rfl

/-- The first capture that is handed over to a motor since it was settled is the reply that the next
frame finds. An echo among them is damaged. -/
theorem exists_damaged_of_echo {capture : Capture} (settled : start.Settled)
    (nodup : start.wiring.timers.Nodup) (mailboxes : start.SoundMailboxes)
    (speaking : start.telemetry = true) (sameFrame : ∀ op ∈ ops, op ≠ .beginFrame)
    (run : start.run ops = .ok (last, calls))
    (delivered : (start.deliveries motor ops).head? = some capture)
    (inverted : last.encoding.Inverted words)
    (echoes : last.encoding.Echoes words (capture.words.take capture.count)) :
    last.encoding.decode (capture.words.take capture.count) = none ∧
      ∃ state edges, last.motor? motor = some state ∧
        state.reply last.encoding = .damaged edges := by
  have encoding : last.encoding = start.encoding := congrArg Wiring.encoding (wiring_run run)
  rcases exists_motor?_of_mem_deliveries (List.mem_of_head? delivered) with ⟨first, foundFirst⟩
  rcases settled motor first foundFirst with ⟨empty, noReply⟩
  rcases (heardSince_start empty noReply start.encoding.captureLength).run nodup mailboxes speaking
    rfl foundFirst sameFrame run with ⟨state, found, since⟩
  rcases inverted with ⟨value, asksTelemetry, rfl⟩
  rcases Encoding.decode_echo echoes with ⟨length, undecoded⟩
  refine ⟨undecoded, state, ?_⟩
  have written : min capture.count last.encoding.captureLength ≤ capture.words.length := by
    rw [List.length_take] at length
    omega
  have carries := since.carries
  rcases List.head?_eq_some_iff.mp delivered with ⟨later, heard⟩
  rw [List.nil_append, heard, ← encoding] at carries
  rcases carries with ⟨box, boxSound, boxEmpty, mailbox⟩
  have reply := MotorState.reply_of_deposit boxSound boxEmpty written mailbox
  rw [undecoded] at reply
  rcases reply with ⟨edges, damaged⟩
  exact ⟨edges, found, damaged⟩

end Replies

/-- A link never takes its own transmission for telemetry. Let a capture that is handed over to a
motor be an echo of any words that the link has staged, for any motor and in any frame. Then it is
not decoded: the next frame leaves the motor without telemetry and counts one damaged reply for it,
beside those of the other motors. -/
theorem echo_never_decoded {settings : MotorSettings} {timing : Timing}
    {answers : Nat → Except ClaimError Channel} (speaking : settings.telemetry = true)
    (lanes : settings.burst = true → ∀ motor channel, motor < settings.claimCount →
      answers motor = .ok channel → channel.index.toNat < channelsPerTimer)
    (fits : timing.Fits) :
    ∃ link init, connect settings timing answers = .ok (link, init) ∧
      ∀ earlier recent : List Op, (earlier = [] ∨ earlier.getLast? = some .beginFrame) →
        (∀ op ∈ recent, op ≠ .beginFrame) →
          ∃ start before last calls,
            link.run earlier = .ok (start, before) ∧ start.run recent = .ok (last, calls) ∧
            ∀ motor capture words, (start.deliveries motor recent).head? = some capture →
              link.Staged (earlier ++ recent) words →
              settings.protocol.encoding.Echoes words (capture.words.take capture.count) →
                settings.protocol.encoding.decode (capture.words.take capture.count) = none ∧
                last.beginFrame.1.telemetryOf motor = none ∧
                last.beginFrame.1.counters.damaged = last.counters.damaged + 1 + UInt32.ofNat
                  (last.tallyBeside motor fun state =>
                    (state.reply settings.protocol.encoding).isDamaged) := by
  rcases exists_initial fits settings answers with ⟨link, init, connected, initial, _⟩
  refine ⟨link, init, connected, ?_⟩
  intro earlier recent boundary sameFrame
  have fit := initial.lanesFit lanes
  have linkSpeaking := initial.telemetry_eq.trans speaking
  rcases exists_run_of_lanesFit fit earlier with ⟨start, before, ranEarlier⟩
  have startWiring := wiring_run ranEarlier
  rcases exists_run_of_lanesFit (startWiring ▸ fit) recent with ⟨last, calls, ranRecent⟩
  have lastWiring := wiring_run ranRecent
  refine ⟨start, before, last, calls, ranEarlier, ranRecent, ?_⟩
  intro motor capture words delivered staged echoes
  have startSpeaking := (congrArg Wiring.telemetry startWiring).trans linkSpeaking
  have lastSpeaking := (congrArg Wiring.telemetry lastWiring).trans startSpeaking
  have lastEncoding : last.encoding = link.encoding :=
    congrArg Wiring.encoding (lastWiring.trans startWiring)
  have inverted := inverted_of_staged linkSpeaking fit initial.roomyBuffers staged
  have settled := settled_of_boundary (settled_of_initial initial) initial.soundMailboxes
    linkSpeaking boundary ranEarlier
  rw [← lastEncoding] at inverted
  rw [← initial.encoding_eq, ← lastEncoding] at echoes ⊢
  rcases exists_damaged_of_echo settled (startWiring ▸ initial.nodup)
    (soundMailboxes_run initial.soundMailboxes ranEarlier) startSpeaking sameFrame ranRecent
    delivered inverted echoes with ⟨undecoded, state, edges, found, damaged⟩
  exact ⟨undecoded, beginFrame_of_damaged lastSpeaking found damaged⟩

/-- With bursts, motor 1 hears what was sent to motor 0, every pulse three ticks too long. -/
theorem echo_never_decoded_of_neighbour :
    let packet := Packet.make 100 false true
    let echo : Capture := .ofWords (Encoding.bits.edgesOf (fun index => index) fun index =>
      Encoding.bits.width (Encoding.bits.symbol packet index) + 3)
    ∃ link init start before last calls,
      connect { motorCount := 2, burst := true } {} (Bench.inOrder []).answer = .ok (link, init) ∧
      link.run [.beginFrame] = .ok (start, before) ∧
      start.run [.write 0 100, .write 1 200, .endFrame, .transferDone 0 .nothing,
        .transferDone 1 echo] = .ok (last, calls) ∧
      last.beginFrame.1.telemetryOf 1 = none ∧ last.beginFrame.1.counters.damaged = 1 := by
  intro packet echo
  have fits : Timing.Fits {} := by decide
  have distinct := Bench.distinctAnswers_inOrder [] { motorCount := 2, burst := true }
  rcases echo_never_decoded rfl (fun _ _ _ => distinct.index_lt) fits with
    ⟨link, init, connected, frames⟩
  rcases frames [.beginFrame] [.write 0 100, .write 1 200, .endFrame, .transferDone 0 .nothing,
    .transferDone 1 echo] (.inr rfl) (by simp) with
    ⟨start, before, last, calls, ranEarlier, ranRecent, echoes⟩
  refine ⟨link, init, start, before, last, calls, connected, ranEarlier, ranRecent, ?_⟩
  cases connected
  cases ranEarlier
  cases ranRecent
  have isEcho : Encoding.bits.Echoes (Encoding.bits.frame packet) (echo.words.take echo.count) :=
    ⟨fun index => index, fun index => Encoding.bits.width (Encoding.bits.symbol packet index) + 3,
      rfl, by decide⟩
  have heard := echoes 1 echo _ rfl (@Staged.inBurst _ _ [.beginFrame, .write 0 100, .write 1 200]
    [.transferDone 0 .nothing, .transferDone 1 echo] _ _ 0 100 ⟨⟨0⟩, 0⟩ _ rfl rfl (by simp) rfl
    List.mem_cons_self)
  have outcome := heard isEcho
  exact ⟨outcome.2.1, outcome.2.2.trans (by decide +kernel)⟩

end Link

end Rotor

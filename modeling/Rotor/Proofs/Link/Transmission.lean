import Rotor.Proofs.Link.Connected
import Rotor.Proofs.Link.Staging

/-!
# What a frame transmits

In a frame every motor is written once, while commands and completed transfers come in as they like.
This file proves that a timer which is started at the end of the frame sends to each of its motors
the packet of this very frame, whatever was staged and held back before, and that the frame is sent
exactly when the command queue lets it out.

The invariant of a frame under way is `Link.Underway`: the head of the queue is still what it was
when the frame began, and every channel that was written is loaded with the words of its last write.
-/

namespace Rotor

/-- The packet that a motor is due in a frame. An active command takes the place of the throttle
values of all motors: those that it is not meant for are sent motor stop. -/
def duePacket (commands : Queue) (telemetry : Bool) (motor : Nat) (throttle : UInt16) : UInt16 :=
  match commands.active? with
  | some head =>
    let command := if head.target.includes motor then head.command.value else 0
    Packet.make command (command ≠ 0) telemetry
  | none => Packet.make throttle false telemetry

/-- A call starts the timer of a channel, and the channel sends the given words: they are those that
were last loaded for it, or they stand in its lane of a burst. -/
def Call.Delivers (loading : List Call) (channel : Channel) (words : List UInt32) : Call → Prop
  | .start _ channels =>
      channels.contains channel.index = true ∧ lastLoad channel loading = some words
  | .burst _ sent =>
      sent.length = channelsPerTimer * words.length ∧ lane sent channel.index.toNat = words
  | _ => False

namespace Link

namespace Op

/-- Operations that may come in at any moment of a frame. -/
def isAside : Op → Bool
  | .transferDone _ _ | .send _ _ => true
  | _ => false

/-- The throttle value that an operation stages for a motor. -/
def throttleFor? (motor : Nat) : Op → Option UInt16
  | .write other throttle => if other = motor then some throttle else none
  | _ => none

end Op

/-- The operations of a frame up to its end: it begins, every motor is written in some order, and
asides come in between. -/
def Stages (count : Nat) (throttles : Nat → UInt16) (ops : List Op) : Prop :=
  ∃ writes : List Op, writes.Perm (writeOps count throttles) ∧
    ops.filter (fun op => !op.isAside) = .beginFrame :: writes

/-- The throttle value that was last staged for a motor. -/
def lastThrottle (motor : Nat) (ops : List Op) : Option UInt16 :=
  (ops.filterMap (Op.throttleFor? motor)).getLast?

variable {link idle next last : Link} {ops : List Op} {calls : List Call} {motor count : Nat}
  {throttles : Nat → UInt16}

section Schedule

theorem mem_of_stages (stages : Stages count throttles ops) {op : Op} (opMem : op ∈ ops) :
    op.isAside = true ∨ op = .beginFrame ∨
      ∃ motor < count, op = .write motor (throttles motor) := by
  rcases stages with ⟨writes, perm, order⟩
  cases aside : op.isAside with
  | true => exact Or.inl rfl
  | false =>
      have kept : op ∈ ops.filter (fun op => !op.isAside) := by
        simpa [aside] using opMem
      rw [order, List.mem_cons, perm.mem_iff] at kept
      right
      rcases kept with rfl | kept
      · exact Or.inl rfl
      · right
        simpa [writeOps, eq_comm] using kept

theorem write_mem_of_stages (stages : Stages count throttles ops) (isMotor : motor < count) :
    Op.write motor (throttles motor) ∈ ops := by
  rcases stages with ⟨writes, perm, order⟩
  have kept : Op.write motor (throttles motor) ∈ ops.filter (fun op => !op.isAside) := by
    rw [order, List.mem_cons, perm.mem_iff]
    right
    simpa [writeOps] using isMotor
  exact (List.mem_filter.mp kept).1

theorem not_endFrame_of_stages (stages : Stages count throttles ops) {op : Op}
    (opMem : op ∈ ops) : op ≠ .endFrame := by
  rcases mem_of_stages stages opMem with aside | rfl | ⟨motor, _, rfl⟩
  · rintro rfl
    simp [Op.isAside] at aside
  · simp
  · simp

/-- The last value staged for a motor in a frame is the one of the frame. -/
theorem lastThrottle_of_stages (stages : Stages count throttles ops) (isMotor : motor < count) :
    lastThrottle motor ops = some (throttles motor) := by
  have staged : throttles motor ∈ ops.filterMap (Op.throttleFor? motor) :=
    List.mem_filterMap.mpr
      ⟨_, write_mem_of_stages stages isMotor, by simp [Op.throttleFor?]⟩
  have only : ∀ throttle ∈ ops.filterMap (Op.throttleFor? motor),
      throttle = throttles motor := by
    intro throttle throttleMem
    rcases List.mem_filterMap.mp throttleMem with ⟨op, opMem, stagedByOp⟩
    rcases mem_of_stages stages opMem with aside | rfl | ⟨other, _, rfl⟩
    · cases op <;> simp [Op.isAside, Op.throttleFor?] at aside stagedByOp
    · simp [Op.throttleFor?] at stagedByOp
    · simp only [Op.throttleFor?, Option.ite_none_right_eq_some, Option.some.injEq] at stagedByOp
      rw [← stagedByOp.2, stagedByOp.1]
  unfold lastThrottle
  rcases List.getLast?_isSome.mpr (List.ne_nil_of_mem staged) |> Option.isSome_iff_exists.mp with
    ⟨throttle, lastIs⟩
  rw [lastIs, only throttle (List.mem_of_getLast? lastIs)]

theorem lastThrottle_concat (motor : Nat) (ops : List Op) (op : Op) :
    lastThrottle motor (ops ++ [op]) = (op.throttleFor? motor).or (lastThrottle motor ops) := by
  cases staged : op.throttleFor? motor <;> simp [lastThrottle, staged]

end Schedule

theorem packetFor_eq_duePacket (link : Link) (motor : Nat) (throttle : UInt16) :
    link.packetFor motor throttle =
      duePacket link.commands link.telemetry motor throttle := by
  unfold packetFor override? duePacket
  rw [Queue.isActive_eq]
  cases active : link.commands.active? with
  | none => simp
  | some head => simp [Queue.valueFor_of_active active]

/-- A frame under way since `idle`. -/
structure Underway (idle : Link) (ops : List Op) (link : Link) (calls : List Call) : Prop where
  quiet : ∀ call ∈ calls, call.startedTimer? = none
  active : link.commands.active? = idle.commands.active?
  loaded : ∀ {motor throttle channel}, lastThrottle motor ops = some throttle →
    idle.wiring.channel? motor = some channel →
      link.Loaded calls channel
        (idle.encoding.frame (duePacket idle.commands idle.telemetry motor throttle))

/-- A motor that is written in a frame is sent the packet that it was due when the frame began. -/
theorem Underway.wordsFor_eq (underway : Underway idle ops link calls)
    (wiring : link.wiring = idle.wiring) (motor : Nat) (throttle : UInt16) :
    link.wordsFor motor throttle =
      idle.encoding.frame (duePacket idle.commands idle.telemetry motor throttle) := by
  have encoding : link.encoding = idle.encoding := congrArg Wiring.encoding wiring
  have telemetry : link.telemetry = idle.telemetry := congrArg Wiring.telemetry wiring
  unfold wordsFor
  rw [packetFor_eq_duePacket, encoding, telemetry, duePacket, underway.active]
  rfl

/-- A write makes its own motor ready and keeps the others so. -/
theorem Underway.loaded_write {target : Nat} {state : MotorState} (sound : link.Sound)
    (wiring : link.wiring = idle.wiring) (underway : Underway idle ops link calls)
    (found : link.motor? target = some state) (throttle : UInt16) {motor : Nat}
    {lastOne : UInt16} {channel : Channel}
    (staged : lastThrottle motor (ops ++ [.write target throttle]) = some lastOne)
    (wired : idle.wiring.channel? motor = some channel) :
    (link.staged target throttle state.channel).Loaded
      (calls ++ if link.burst then [] else [.load state.channel (link.wordsFor target throttle)])
      channel (idle.encoding.frame (duePacket idle.commands idle.telemetry motor lastOne)) := by
  rw [lastThrottle_concat] at staged
  by_cases same : target = motor
  · subst same
    simp only [Op.throttleFor?, if_true, Option.some_or, Option.some.injEq] at staged
    subst staged
    have sameChannel : state.channel = channel := by
      rw [← wiring, channel?_wiring found] at wired
      exact Option.some.inj wired
    rw [← underway.wordsFor_eq wiring, ← sameChannel]
    exact loaded_staged_self sound.buffers sound.wiring.lanesFit found throttle calls
  · simp only [Op.throttleFor?, same, if_false, Option.none_or] at staged
    have linkWired : link.wiring.channel? motor = some channel := wiring ▸ wired
    have apart : state.channel ≠ channel := by
      intro sameChannel
      exact same (sound.wiring.distinct (channel?_wiring found) (sameChannel ▸ linkWired))
    exact loaded_staged_of_ne sound.wiring.lanesFit found linkWired apart
      (underway.loaded staged wired)

/-- Every operation before the end of a frame keeps it under way. -/
theorem underway_effect {op : Op} {made : List Call} (sound : link.Sound)
    (wiring : link.wiring = idle.wiring) (underway : Underway idle ops link calls)
    (effect : link.Effect op next made) (inFrame : op ≠ .endFrame) :
    Underway idle (ops ++ [op]) next (calls ++ made) := by
  have quietAppend (quiet : ∀ call ∈ made, call.startedTimer? = none) :
      ∀ call ∈ calls ++ made, call.startedTimer? = none :=
    List.forall_mem_append.mpr ⟨underway.quiet, quiet⟩
  -- Whatever stages nothing leaves the channels loaded.
  have loadedOf (timers : next.timers = link.timers) (quiet : ∀ call ∈ made, call.sends = false)
      (noThrottle : ∀ motor, op.throttleFor? motor = none) {motor : Nat} {throttle : UInt16}
      {channel : Channel} (staged : lastThrottle motor (ops ++ [op]) = some throttle)
      (wired : idle.wiring.channel? motor = some channel) :
      next.Loaded (calls ++ made) channel
        (idle.encoding.frame (duePacket idle.commands idle.telemetry motor throttle)) := by
    rw [lastThrottle_concat, noThrottle motor, Option.none_or] at staged
    exact loaded_of_quiet timers (wiring_effect effect) quiet (underway.loaded staged wired)
  cases effect with
  | beginFrame =>
      have quiet := quiet_beginFrame link
      refine ⟨quietAppend ?_, by simpa using underway.active,
        loadedOf (timers_beginFrame link) quiet (fun _ => rfl)⟩
      intro call callMem
      exact Call.startedTimer?_of_quiet (quiet call callMem)
  | writeAbsent throttle absent =>
      rename_i target
      refine ⟨by simpa using underway.quiet, underway.active, ?_⟩
      intro motor throttle channel staged wired
      have differ : target ≠ motor := by
        rintro rfl
        rw [← wiring] at wired
        rcases exists_motor?_of_channel? wired with ⟨state, found, _⟩
        simp [absent] at found
      rw [lastThrottle_concat] at staged
      simp only [Op.throttleFor?, differ, if_false, Option.none_or] at staged
      simpa using underway.loaded staged wired
  | write throttle found =>
      refine ⟨quietAppend ?_, underway.active, underway.loaded_write sound wiring found throttle⟩
      intro call callMem
      split at callMem
      · simp at callMem
      · rw [List.mem_singleton.mp callMem]
        rfl
  | endHeld held => exact absurd rfl inFrame
  | endReleased released => exact absurd rfl inFrame
  | transferDone target capture =>
      have quiet := quiet_transferDone link target capture
      refine ⟨quietAppend ?_, by simpa using underway.active,
        loadedOf (timers_transferDone link target capture) quiet (fun _ => rfl)⟩
      intro call callMem
      exact Call.startedTimer?_of_quiet (quiet call callMem)
  | send target command =>
      exact ⟨by simpa using underway.quiet, by simpa using underway.active,
        loadedOf rfl (by simp) (fun _ => rfl)⟩

/-- Up to its end, a frame is under way. -/
theorem underway_run (sound : idle.Sound) (inFrame : ∀ op ∈ ops, op ≠ .endFrame)
    (run : idle.run ops = .ok (last, calls)) : Underway idle ops last calls := by
  refine run_induction (motive := fun ops link calls =>
    (∀ op ∈ ops, op ≠ .endFrame) → Underway idle ops link calls) sound ?_ ?_ run inFrame
  · intro _
    exact ⟨by simp, rfl, by simp [lastThrottle]⟩
  · intro ops mid calls op next made _ midSound wiring underway effect inFrame
    refine underway_effect midSound wiring (underway ?_) effect (inFrame op (by simp))
    intro op opMem
    exact inFrame op (by simp [opMem])

/-- Before its end a frame has made every motor ready to send the packet of this frame. -/
theorem loaded_of_stages (sound : idle.Sound) (stages : Stages idle.motorCount throttles ops)
    (run : idle.run ops = .ok (last, calls)) {channel : Channel}
    (wired : idle.wiring.channel? motor = some channel) :
    last.Loaded calls channel
      (idle.encoding.frame (duePacket idle.commands idle.telemetry motor (throttles motor))) := by
  rcases exists_motor?_of_channel? wired with ⟨state, found, _⟩
  have staged := lastThrottle_of_stages stages (lt_motorCount_of_motor? found)
  exact (underway_run sound (fun _ => not_endFrame_of_stages stages) run).loaded staged wired

section Fire

variable {channel : Channel} {words : List UInt32} {entry : TimerState}

/-- The timer of a loaded channel is due, and the channel with it. -/
theorem contains_due_of_loaded (loaded : link.Loaded calls channel words)
    (entryMem : entry ∈ link.timers) (onTimer : entry.timer = channel.timer) :
    (entry.due link.burst).contains channel.index = true := by
  have ready := loaded entry entryMem onTimer
  rcases Bool.eq_false_or_eq_true link.burst with burst | single
  · rw [if_pos burst] at ready
    have nonempty : entry.burstLength ≠ 0 := by
      rw [ready.1]
      cases link.encoding <;> decide
    simp [TimerState.due, burst, nonempty]
  · rw [single] at ready ⊢
    exact ready.1

theorem isDue_of_loaded (sound : link.Sound) (wired : link.wiring.channel? motor = some channel)
    (loaded : link.Loaded calls channel words) : link.isDue channel = true := by
  rcases List.mem_map.mp (sound.wiring.known wired) with ⟨entry, entryMem, onTimer⟩
  exact (isDue_iff sound.wiring.nodup).mpr
    ⟨entry, entryMem, onTimer, contains_due_of_loaded loaded entryMem onTimer⟩

theorem lastLoad_of_loaded (sound : link.Sound) (single : link.burst = false)
    (wired : link.wiring.channel? motor = some channel)
    (loaded : link.Loaded calls channel words) : lastLoad channel calls = some words := by
  rcases List.mem_map.mp (sound.wiring.known wired) with ⟨entry, entryMem, onTimer⟩
  have ready := loaded entry entryMem onTimer
  rw [single] at ready
  exact ready.2

theorem exists_start_of_loaded (sound : link.Sound)
    (wired : link.wiring.channel? motor = some channel)
    (loaded : link.Loaded calls channel words) :
    ∃ call ∈ link.fire.2, call.startedTimer? = some channel.timer := by
  rcases List.mem_map.mp (sound.wiring.known wired) with ⟨entry, entryMem, onTimer⟩
  have due := contains_due_of_loaded loaded entryMem onTimer
  rcases exists_startCall? (ChannelSet.isEmpty_eq_false_of_contains due) with ⟨call, starts⟩
  refine ⟨call, mem_calls_fire.mpr ⟨entry, entryMem, starts⟩, ?_⟩
  rw [startedTimer?_of_startCall? starts, onTimer]

theorem delivers_of_loaded (sound : link.Sound) (loaded : link.Loaded calls channel words)
    (length_eq : words.length = link.encoding.frameLength) {call : Call}
    (callMem : call ∈ link.fire.2) (started : call.startedTimer? = some channel.timer) :
    call.Delivers calls channel words := by
  rcases mem_calls_fire.mp callMem with ⟨entry, entryMem, starts⟩
  have onTimer : entry.timer = channel.timer := by
    rw [startedTimer?_of_startCall? starts] at started
    exact Option.some.inj started
  have ready := loaded entry entryMem onTimer
  unfold TimerState.startCall? at starts
  split at starts
  · simp at starts
  · split at starts
    · next burst =>
      rw [if_pos burst] at ready
      cases starts
      refine ⟨?_, ready.2⟩
      have room := frameLength_fits link.encoding
      rw [List.length_take, ready.1, sound.buffers entry entryMem, length_eq, Nat.mul_comm]
      rw [Nat.mul_comm] at room
      exact Nat.min_eq_left room
    · next single =>
      rw [if_neg single] at ready
      cases starts
      exact ready

end Fire

section EndFrame

variable {channel : Channel} {words : List UInt32}

theorem endFrame_of_letsOut (sound : link.commands.Sound) (lets : link.commands.LetsOut) :
    link.endFrame = fire { link with commands := link.commands.tick.2 } :=
  endFrame_of_released (Prod.ext ((Queue.tick_fst_iff sound).mpr lets) rfl)

theorem endFrame_of_not_letsOut (sound : link.commands.Sound) (held : ¬link.commands.LetsOut) :
    link.endFrame = ({ link with commands := link.commands.tick.2 }, []) := by
  have notReleased : link.commands.tick.1 = false := by
    simpa using (Queue.tick_fst_iff sound).not.mpr held
  exact endFrame_of_held (Prod.ext notReleased rfl)

/-- A frame that the queue holds back makes no calls, and any other one starts the timers. -/
theorem endFrame_cases (sound : link.commands.Sound) :
    (link.commands.LetsOut ∧
        link.endFrame = fire { link with commands := link.commands.tick.2 }) ∨
      (¬link.commands.LetsOut ∧ link.endFrame.2 = []) := by
  by_cases lets : link.commands.LetsOut
  · exact .inl ⟨lets, endFrame_of_letsOut sound lets⟩
  · exact .inr ⟨lets, by rw [endFrame_of_not_letsOut sound lets]⟩

theorem delivers_of_mem_endFrame (sound : link.Sound) (loaded : link.Loaded calls channel words)
    (length_eq : words.length = link.encoding.frameLength) {call : Call}
    (callMem : call ∈ link.endFrame.2) (started : call.startedTimer? = some channel.timer) :
    call.Delivers calls channel words := by
  rcases endFrame_cases sound.commands with ⟨_, fired⟩ | ⟨_, silent⟩
  · rw [fired] at callMem
    exact delivers_of_loaded (sound_withCommands sound (Queue.sound_tick sound.commands)) loaded
      length_eq callMem started
  · simp [silent] at callMem

theorem letsOut_of_mem_endFrame (sound : link.Sound) {call : Call}
    (callMem : call ∈ link.endFrame.2) : link.commands.LetsOut := by
  rcases endFrame_cases sound.commands with ⟨lets, _⟩ | ⟨_, silent⟩
  · exact lets
  · simp [silent] at callMem

theorem exists_start_of_letsOut (sound : link.Sound)
    (wired : link.wiring.channel? motor = some channel)
    (loaded : link.Loaded calls channel words) (lets : link.commands.LetsOut) :
    ∃ call ∈ link.endFrame.2, call.startedTimer? = some channel.timer := by
  rw [endFrame_of_letsOut sound.commands lets]
  exact exists_start_of_loaded
    (sound_withCommands sound (Queue.sound_tick sound.commands)) wired loaded

/-- The timers that a frame starts, if the queue lets it out, are those of the motors. -/
theorem exists_start_iff (sound : link.Sound) (loaded : ∀ {motor channel},
    link.wiring.channel? motor = some channel → ∃ words, link.Loaded calls channel words)
    {timer : Timer} :
    (∃ call ∈ link.endFrame.2, call.startedTimer? = some timer) ↔
      link.commands.LetsOut ∧
        ∃ motor channel, link.wiring.channel? motor = some channel ∧ channel.timer = timer := by
  constructor
  · rintro ⟨call, callMem, started⟩
    refine ⟨letsOut_of_mem_endFrame sound callMem, sound.wiring.used ?_⟩
    rcases endFrame_cases sound.commands with ⟨_, fired⟩ | ⟨_, silent⟩
    · rw [fired] at callMem
      rcases mem_calls_fire.mp callMem with ⟨entry, entryMem, starts⟩
      rw [startedTimer?_of_startCall? starts] at started
      exact List.mem_map.mpr ⟨entry, entryMem, Option.some.inj started⟩
    · simp [silent] at callMem
  · rintro ⟨lets, motor, channel, wired, rfl⟩
    rcases loaded wired with ⟨words, ready⟩
    exact exists_start_of_letsOut sound wired ready lets

end EndFrame

/-- A timer that is started at the end of a frame sends to each of its motors the packet of this
frame, and the frame is sent exactly when the command queue lets it out. Whatever was done with the
link before the frame makes no difference. -/
theorem frame_transmits_own_packets {settings : MotorSettings} {timing : Timing}
    {answers : Nat → Except ClaimError Channel} (distinct : DistinctAnswers settings answers)
    (fits : timing.Fits) :
    ∃ link init, connect settings timing answers = .ok (link, init) ∧
      ∀ (earlier staging trailing : List Op) (throttles : Nat → UInt16),
        Stages settings.claimCount throttles staging → (∀ op ∈ trailing, op.isAside = true) →
          ∃ idle before staged loading last after,
            link.run earlier = .ok (idle, before) ∧
            idle.run staging = .ok (staged, loading) ∧
            staged.endFrame.1.run trailing = .ok (last, after) ∧
            (∀ call ∈ loading ++ after, call.startedTimer? = none) ∧
            (∀ call ∈ staged.endFrame.2, ∀ motor channel,
              link.wiring.channel? motor = some channel →
                call.startedTimer? = some channel.timer →
                  call.Delivers loading channel (settings.protocol.encoding.frame
                    (duePacket idle.commands settings.telemetry motor (throttles motor)))) ∧
            ((∃ motor, link.isConnected motor = true) →
              ((∃ call ∈ staged.endFrame.2, call.startedTimer? ≠ none) ↔
                staged.commands.LetsOut)) := by
  rcases exists_connect distinct fits with ⟨link, init, connected, fresh⟩
  refine ⟨link, init, connected, ?_⟩
  intro earlier staging trailing throttles stages asides
  rcases exists_run fresh.sound earlier with ⟨idle, before, ranBefore, idleSound, idleWiring⟩
  rcases exists_run idleSound staging with ⟨staged, loading, ranStaging, sound, stagedWiring⟩
  have endSound := sound_effect sound (effect_endFrame staged)
  rcases exists_run endSound trailing with ⟨last, after, ranTrailing, _, _⟩
  have underway := underway_run idleSound (fun _ => not_endFrame_of_stages stages) ranStaging
  have quietAfter : ∀ call ∈ after, call.startedTimer? = none := by
    refine (underway_run endSound ?_ ranTrailing).quiet
    rintro op opMem rfl
    simpa [Op.isAside] using asides _ opMem
  have idleConfigured := configured_of_wiring fresh.toConfigured idleWiring
  have stagedConfigured := configured_of_wiring idleConfigured stagedWiring
  have loaded {motor : Nat} {channel : Channel}
      (wired : link.wiring.channel? motor = some channel) :
      staged.Loaded loading channel (settings.protocol.encoding.frame
        (duePacket idle.commands settings.telemetry motor (throttles motor))) := by
    rw [← idleConfigured.encoding_eq, ← idleConfigured.telemetry_eq]
    exact loaded_of_stages idleSound (idleConfigured.motorCount_eq ▸ stages) ranStaging
      (idleWiring ▸ wired)
  refine ⟨idle, before, staged, loading, last, after, ranBefore, ranStaging, ranTrailing,
    List.forall_mem_append.mpr ⟨underway.quiet, quietAfter⟩, ?_, ?_⟩
  · intro call callMem motor channel wired started
    exact delivers_of_mem_endFrame sound (loaded wired)
      (by simp [stagedConfigured.encoding_eq]) callMem started
  · rintro ⟨motor, connected⟩
    rcases Option.isSome_iff_exists.mp connected with ⟨state, found⟩
    have wired := channel?_wiring found
    constructor
    · rintro ⟨call, callMem, _⟩
      exact letsOut_of_mem_endFrame sound callMem
    · intro lets
      rcases exists_start_of_letsOut sound (stagedWiring ▸ idleWiring ▸ wired) (loaded wired) lets
        with ⟨call, callMem, started⟩
      exact ⟨call, callMem, by simp [started]⟩

/-- The frame after one that a command for motor 2 held back. Its writes come in reverse, with another
command and a late completion between them. The three motors that have a channel are started, motor
2 with the command and the others with motor stop. -/
theorem frame_transmits_own_packets_after_held_frame :
    ∃ link init idle before staged loading last after,
      connect {} { gyroMicros := 10000 } (Bench.inOrder [(1, .noTimer)]).answer = .ok (link, init) ∧
      link.run (.send (.motor 2) .beacon1 :: frameOps 4 fun _ => 100) = .ok (idle, before) ∧
      before.filterMap Call.startedTimer? = [] ∧
      idle.run [.beginFrame, .write 3 48, .send .all .beacon2, .write 2 2047, .write 1 90,
        .transferDone 0 .nothing, .write 0 60] = .ok (staged, loading) ∧
      staged.endFrame.1.run [.transferDone 2 .nothing] = .ok (last, after) ∧
      staged.commands.LetsOut ∧ staged.endFrame.2 = [.start ⟨0⟩ ⟨0b1101⟩] ∧
      ∀ call ∈ staged.endFrame.2,
        call.Delivers loading ⟨⟨0⟩, 0⟩ (Encoding.bits.frame (Packet.make 0 false true)) ∧
        call.Delivers loading ⟨⟨0⟩, 2⟩ (Encoding.bits.frame (Packet.make 1 true true)) ∧
        call.Delivers loading ⟨⟨0⟩, 3⟩ (Encoding.bits.frame (Packet.make 0 false true)) := by
  have fits : Timing.Fits { gyroMicros := 10000 } := by decide
  rcases frame_transmits_own_packets (Bench.distinctAnswers_inOrder [(1, .noTimer)] {}) fits with
    ⟨link, init, connected, frames⟩
  rcases frames (.send (.motor 2) .beacon1 :: frameOps 4 fun _ => 100)
    [.beginFrame, .write 3 48, .send .all .beacon2, .write 2 2047, .write 1 90,
      .transferDone 0 .nothing, .write 0 60]
    [.transferDone 2 .nothing] (fun motor => [60, 90, 2047, 48].getD motor 0)
    ⟨[.write 3 48, .write 2 2047, .write 1 90, .write 0 60], by decide, by decide⟩ (by decide)
    with ⟨idle, before, staged, loading, last, after, ranEarlier, ranStaging, ranTrailing, _,
      delivers, started⟩
  have outcome : ∃ link init idle before staged loading,
      connect {} { gyroMicros := 10000 } (Bench.inOrder [(1, .noTimer)]).answer =
        .ok (link, init) ∧
      link.run (.send (.motor 2) .beacon1 :: frameOps 4 fun _ => 100) = .ok (idle, before) ∧
      idle.run [.beginFrame, .write 3 48, .send .all .beacon2, .write 2 2047, .write 1 90,
        .transferDone 0 .nothing, .write 0 60] = .ok (staged, loading) ∧
      before.filterMap Call.startedTimer? = [] ∧ staged.endFrame.2 = [.start ⟨0⟩ ⟨0b1101⟩] ∧
      link.isConnected 0 = true ∧
      [0, 2, 3].map link.wiring.channel? = [some ⟨⟨0⟩, 0⟩, some ⟨⟨0⟩, 2⟩, some ⟨⟨0⟩, 3⟩] ∧
      duePacket idle.commands true 0 60 = Packet.make 0 false true ∧
      duePacket idle.commands true 2 2047 = Packet.make 1 true true ∧
      duePacket idle.commands true 3 48 = Packet.make 0 false true :=
    ⟨_, _, _, _, _, _, rfl, rfl, rfl, rfl, rfl, rfl, rfl, rfl, rfl, rfl⟩
  rcases outcome with ⟨_, _, _, _, _, _, sameConnected, sameEarlier, sameStaging, held, sent,
    attached, wired, packets⟩
  cases connected.symm.trans sameConnected
  cases ranEarlier.symm.trans sameEarlier
  cases ranStaging.symm.trans sameStaging
  simp only [List.map_cons, List.map_nil, List.cons.injEq, and_true] at wired
  rcases wired with ⟨wired0, wired2, wired3⟩
  rcases packets with ⟨packet0, packet2, packet3⟩
  have onTimer : ∀ call ∈ staged.endFrame.2, call.startedTimer? = some ⟨0⟩ := by
    rw [sent]
    decide
  have letsOut : staged.commands.LetsOut := by
    refine (started ⟨0, attached⟩).mp ⟨.start ⟨0⟩ ⟨0b1101⟩, ?_, by decide⟩
    rw [sent]
    exact List.mem_singleton_self _
  refine ⟨link, init, idle, before, staged, loading, last, after, connected, ranEarlier, held,
    ranStaging, ranTrailing, letsOut, sent, ?_⟩
  intro call callMem
  refine ⟨?_, ?_, ?_⟩
  · exact packet0 ▸ delivers call callMem 0 _ wired0 (onTimer call callMem)
  · exact packet2 ▸ delivers call callMem 2 _ wired2 (onTimer call callMem)
  · exact packet3 ▸ delivers call callMem 3 _ wired3 (onTimer call callMem)

end Link

end Rotor

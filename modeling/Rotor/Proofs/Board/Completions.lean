import Rotor.Proofs.Board.Listening
import Rotor.Proofs.Link.Freshness
import Rotor.Proofs.Link.Requests

/-!
# Completion flags from one frame to the next

The beginning of a frame breaks off every capture that has not come, and the stream that it stops
may leave its completion flag behind. Loading a channel clears the flags of its own stream, so
without bursts the flag is gone before the frame is sent. A burst clears only those of the stream
that it goes over, the stream of motor 0. Which calls clear the flags of which stream is the whole
of the argument (`Board.any_clearsCompletion_performAll`).
-/

namespace Rotor

namespace Link

variable {link next last : Link} {ops : List Op} {calls : List Call} {motor : Nat}
  {state : MotorState} {channel : Channel}

/-- Operations that write each of the first `count` motors, with commands between the writes. -/
structure WritesEach (count : Nat) (ops : List Op) : Prop where
  write_mem : ∀ motor < count, ∃ throttle, .write motor throttle ∈ ops
  only : ∀ op ∈ ops, (∃ motor throttle, op = .write motor throttle) ∨
    ∃ target command, op = .send target command

section Frame

/-- The beginning of a frame breaks off the captures that have not come. -/
theorem halt_mem_beginFrame_iff (sound : link.wiring.Sound) (speaking : link.telemetry = true)
    (found : link.motor? motor = some state) :
    .halt state.channel ∈ link.beginFrame.2 ↔ state.mailbox.isFull = false := by
  rw [calls_beginFrame speaking, List.mem_append, List.mem_flatMap]
  constructor
  · rintro (⟨other, otherMem, halts⟩ | enables)
    · rcases mem_connected.mp otherMem with ⟨otherMotor, otherFound⟩
      rcases MotorState.halt_mem_beginCalls_iff.mp halts with ⟨same, empty⟩
      have sameMotor := sound.distinct (channel?_wiring found)
        (same ▸ channel?_wiring otherFound)
      subst sameMotor
      cases found.symm.trans otherFound
      exact empty
    · simp at enables
  · intro empty
    have halted := halt_mem_beginFrame speaking found empty
    rwa [calls_beginFrame speaking, List.mem_append, List.mem_flatMap] at halted

/-- Without bursts every write loads the channel of its motor. -/
theorem load_mem_of_write_mem (single : link.burst = false) (run : link.run ops = .ok (last, calls))
    {throttle : UInt16} (write : .write motor throttle ∈ ops)
    (wired : link.wiring.channel? motor = some channel) :
    ∃ words, .load channel words ∈ calls := by
  rcases List.append_of_mem write with ⟨front, rest, rfl⟩
  rcases run_append_eq_ok_iff.mp run with ⟨mid, before, after, ranFront, ranRest, rfl⟩
  rcases run_cons_eq_ok_iff.mp ranRest with ⟨next, made, more, step, _, rfl⟩
  have wiring := wiring_run ranFront
  have midSingle : mid.burst = false := (congrArg Wiring.burst wiring).trans single
  rw [← wiring] at wired
  rcases exists_motor?_of_channel? wired with ⟨state, found, rfl⟩
  cases effect_of_step step with
  | writeAbsent throttle absent =>
      rw [found] at absent
      cases absent
  | write throttle writtenFound =>
      cases found.symm.trans writtenFound
      exact ⟨mid.wordsFor motor throttle, by simp [midSingle]⟩

/-- With bursts, writes and commands make no calls. -/
theorem calls_eq_nil_of_only (bursts : link.burst = true)
    (only : ∀ op ∈ ops, (∃ motor throttle, op = .write motor throttle) ∨
      ∃ target command, op = .send target command)
    (run : link.run ops = .ok (last, calls)) : calls = [] := by
  induction ops generalizing link calls with
  | nil =>
      cases run
      rfl
  | cons op rest ih =>
      rw [List.forall_mem_cons] at only
      rcases run_cons_eq_ok_iff.mp run with ⟨next, made, more, step, later, rfl⟩
      have effect := effect_of_step step
      have nextBursts : next.burst = true :=
        (congrArg Wiring.burst (wiring_effect effect)).trans bursts
      rw [ih nextBursts only.2 later, List.append_nil]
      rcases only.1 with ⟨motor, throttle, rfl⟩ | ⟨target, command, rfl⟩
      · cases effect with
        | writeAbsent => rfl
        | write => rw [if_pos bursts]
      · cases effect
        rfl

/-- What the end of a frame makes are bursts, or starts of channels. -/
theorem exists_entry_of_mem_endFrame {call : Call} (callMem : call ∈ link.endFrame.2) :
    ∃ entry : TimerState, call =
      if link.burst then .burst entry.timer (entry.burst.take entry.burstLength)
      else .start entry.timer entry.pending := by
  rcases ticked : link.commands.tick with ⟨released, commands⟩
  cases released with
  | false => simp [endFrame_of_held ticked] at callMem
  | true =>
      rw [endFrame_of_released ticked] at callMem
      rcases mem_calls_fire.mp callMem with ⟨entry, _, starts⟩
      exact ⟨entry, eq_of_startCall? starts⟩

end Frame

end Link

namespace Board

open Link (Op)

variable {board : Board} {stream : Nat}

/-- Whether an access clears the completion flag of a stream. -/
def Access.clearsCompletion (stream : Nat) : Access → Bool
  | .write register fields =>
    register = .dmaClear (stream / 4) && fields.contains (.completeFlag (stream % 4), .flag true)
  | _ => false

/-- The stream whose flags a call clears. -/
def clearedStream? : Call → Option Nat
  | .load channel _ | .arm channel _ => some (streamOf channel.index.toNat)
  | .burst _ _ => some firstStream
  | .acknowledge motor => some (firstStream + motor)
  | _ => none

/-- The accesses of calls that are made after others. -/
def accessesAfter (board : Board) (earlier calls : List Call) : List Access :=
  ((board.performAll earlier).1.performAll calls).2

section Clearing

@[simp]
theorem any_clearsCompletion_stopAccesses (board : Board) (other : Nat) :
    (board.stopAccesses other).any (Access.clearsCompletion stream) = false := by
  simp [stopAccesses, Access.clearsCompletion]

@[simp]
theorem any_clearsCompletion_clearAccesses (other : Nat) :
    (clearAccesses other).any (Access.clearsCompletion stream) = decide (other = stream) := by
  have same : (other / 4 = stream / 4 ∧ stream % 4 = other % 4) ↔ other = stream := by
    omega
  simp [clearAccesses, Access.clearsCompletion, ← same]

@[simp]
theorem any_clearsCompletion_startAccesses (board : Board) (other : Nat) (direction : Setting)
    (peripheral : Nat) (region : Region) (count : Nat) :
    (board.startAccesses other direction peripheral region count).any
      (Access.clearsCompletion stream) = decide (other = stream) := by
  simp [startAccesses, Access.clearsCompletion]

theorem any_clearsCompletion_perform (board : Board) (call : Call) :
    (board.perform call).2.any (Access.clearsCompletion stream) =
      decide (clearedStream? call = some stream) := by
  cases call with
  | claim motor burst =>
      simp only [perform]
      split
      · rfl
      · simp only [claimAccesses]
        split <;> simp [pinAccesses, routeAccesses, Access.clearsCompletion, clearedStream?]
  | setUpTimer other protocol =>
      simp only [perform, initAccesses]
      split <;> simp [Access.clearsCompletion, clearedStream?]
  | load channel words => simp [perform, Access.clearsCompletion, clearedStream?]
  | arm channel count =>
      simp [perform, routeAccesses, requestAccesses, Access.clearsCompletion, clearedStream?]
  | burst other words =>
      simp [perform, routeAccesses, resetAccesses, Access.clearsCompletion, clearedStream?]
  | acknowledge motor => simp [perform, clearedStream?]
  | _ =>
      simp [perform, outputAccesses, inputAccesses, pinAccesses, requestAccesses, resetAccesses,
        Access.clearsCompletion, clearedStream?]

theorem any_clearsCompletion_performAll (board : Board) (calls : List Call) :
    (board.performAll calls).2.any (Access.clearsCompletion stream) =
      calls.any fun call => clearedStream? call = some stream := by
  induction calls generalizing board with
  | nil => rfl
  | cons call rest ih =>
      simp [performAll, any_clearsCompletion_perform, ih]

end Clearing

section Frame

variable {link idle staged : Link} {ops staging : List Op} {calls loading rest : List Call}
  {count motor : Nat} {channel : Channel}

theorem clearedStream?_of_mem_beginFrame {call : Call} (callMem : call ∈ link.beginFrame.2) :
    clearedStream? call = none := by
  rcases Bool.eq_false_or_eq_true link.telemetry with speaking | silent
  · rw [Link.calls_beginFrame speaking, List.mem_append, List.mem_flatMap, List.mem_map] at callMem
    rcases callMem with ⟨state, _, callMem⟩ | ⟨state, _, rfl⟩
    · rcases Link.mem_beginCalls callMem with rfl | rfl <;> rfl
    · rfl
  · simp [Link.beginFrame_of_silent silent] at callMem

/-- Nothing that is left of the beginning of a frame clears flags. -/
theorem any_clearsCompletion_of_begun {front later earlier : List Call} {halted : Call}
    (split : link.beginFrame.2 = front ++ halted :: rest) :
    (accessesAfter board earlier (rest ++ later)).any (Access.clearsCompletion stream) = true ↔
      ∃ call ∈ later, clearedStream? call = some stream := by
  rw [accessesAfter, any_clearsCompletion_performAll, List.any_append, Bool.or_eq_true,
    List.any_eq_true, List.any_eq_true]
  simp only [decide_eq_true_eq]
  apply or_iff_right
  rintro ⟨call, callMem, cleared⟩
  have begins : call ∈ link.beginFrame.2 := by
    rw [split]
    exact List.mem_append_right _ (List.mem_cons_of_mem _ callMem)
  rw [clearedStream?_of_mem_beginFrame begins] at cleared
  cases cleared

theorem clearedStream?_of_mem_endFrame {call : Call} (callMem : call ∈ link.endFrame.2) :
    clearedStream? call = if link.burst then some firstStream else none := by
  rcases Link.exists_entry_of_mem_endFrame callMem with ⟨entry, rfl⟩
  split <;> rfl

/-- Without bursts every motor has the flags of its stream cleared when it is written. -/
theorem cleared_of_channels (serves : Serves idle) (single : idle.burst = false)
    (writes : Link.WritesEach count staging) (run : idle.run staging = .ok (staged, loading))
    (isMotor : motor < count) (wired : idle.wiring.channel? motor = some channel) :
    ∃ call ∈ loading, clearedStream? call = some (streamOf motor) := by
  rcases writes.write_mem motor isMotor with ⟨throttle, write⟩
  rcases Link.load_mem_of_write_mem single run write wired with ⟨words, loads⟩
  rcases Link.exists_motor?_of_channel? wired with ⟨state, found, rfl⟩
  refine ⟨_, loads, ?_⟩
  rw [clearedStream?, (serves motor state found).2]

/-- With bursts the flags of one stream are cleared, and only in a frame that is let out. -/
theorem cleared_iff_of_burst (bursts : idle.burst = true) (sound : staged.Sound)
    (writes : Link.WritesEach count staging) (run : idle.run staging = .ok (staged, loading))
    (starts : (∃ call ∈ staged.endFrame.2, call.startedTimer? = some timer) ↔
      staged.commands.LetsOut) :
    (∃ call ∈ loading ++ staged.endFrame.2, clearedStream? call = some (streamOf motor)) ↔
      motor = 0 ∧ staged.commands.LetsOut := by
  have stagedBursts : staged.burst = true :=
    (congrArg Wiring.burst (Link.wiring_run run)).trans bursts
  have first : firstStream = streamOf motor ↔ motor = 0 := by
    unfold streamOf
    omega
  have cleared {call : Call} (callMem : call ∈ staged.endFrame.2) :
      clearedStream? call = some firstStream := by
    rw [clearedStream?_of_mem_endFrame callMem, if_pos stagedBursts]
  rw [Link.calls_eq_nil_of_only bursts writes.only run, List.nil_append]
  constructor
  · rintro ⟨call, callMem, clears⟩
    rw [cleared callMem, Option.some.injEq] at clears
    exact ⟨first.mp clears, Link.letsOut_of_mem_endFrame sound callMem⟩
  · rintro ⟨rfl, lets⟩
    rcases starts.mpr lets with ⟨call, callMem, _⟩
    exact ⟨call, callMem, cleared callMem⟩

end Frame

/-- When the beginning of a frame breaks off the capture of a motor, the completion flag of its
stream is cleared before the frame ends if there are no bursts. With bursts it is cleared only for
motor 0, and only if the frame is let out. -/
theorem abandoned_flag_cleared_iff {settings : MotorSettings} {timing : Timing}
    (speaking : settings.telemetry = true) (fits : timing.Fits) (clock busyReads : Nat) :
    ∃ link init, Link.connect settings timing (new clock busyReads).answer = .ok (link, init) ∧
      ∀ earlier staging : List Op, Link.WritesEach settings.claimCount staging →
        ∃ idle before staged loading,
          link.run earlier = .ok (idle, before) ∧
          idle.beginFrame.1.run staging = .ok (staged, loading) ∧
          (∀ motor state, idle.motor? motor = some state →
            (.halt state.channel ∈ idle.beginFrame.2 ↔ state.mailbox.isFull = false)) ∧
          ∀ motor channel front rest, link.wiring.channel? motor = some channel →
            idle.beginFrame.2 = front ++ .halt channel :: rest →
              ((accessesAfter (new clock busyReads) (init ++ before ++ front ++ [.halt channel])
                  (rest ++ loading ++ staged.endFrame.2)).any
                  (Access.clearsCompletion (streamOf motor)) = true ↔
                settings.burst = false ∨ motor = 0 ∧ staged.commands.LetsOut) := by
  rcases Link.exists_connect (distinctAnswers_new clock busyReads settings) fits with
    ⟨link, init, connected, fresh⟩
  rcases Link.exists_tracks fits settings (new clock busyReads).answer with
    ⟨_, _, connectedAgain, tracks, _, known⟩
  cases connected.symm.trans connectedAgain
  refine ⟨link, init, connected, ?_⟩
  intro earlier staging writes
  rcases Link.exists_run fresh.sound earlier with ⟨idle, before, ranEarlier, idleSound, idleWiring⟩
  have begunSound := Link.sound_beginFrame idleSound
  have begunWiring : idle.beginFrame.1.wiring = link.wiring :=
    (Link.wiring_beginFrame idle).trans idleWiring
  rcases Link.exists_run begunSound staging with ⟨staged, loading, ranStaging, sound, stagedWiring⟩
  have idleConfigured := Link.configured_of_wiring fresh.toConfigured idleWiring
  have begunConfigured := Link.configured_of_wiring fresh.toConfigured begunWiring
  have begunServes := serves_of_wiring (serves_of_fresh fresh) begunWiring
  refine ⟨idle, before, staged, loading, ranEarlier, ranStaging, ?_, ?_⟩
  · intro motor state found
    exact Link.halt_mem_beginFrame_iff idleSound.wiring
      (idleConfigured.telemetry_eq.trans speaking) found
  intro motor channel front rest wired split
  have isMotor : motor < settings.claimCount := by
    rcases Link.exists_motor?_of_channel? wired with ⟨state, found, _⟩
    rw [← fresh.motorCount_eq]
    exact Link.lt_motorCount_of_motor? found
  rw [List.append_assoc rest, any_clearsCompletion_of_begun split]
  cases bursts : settings.burst with
  | false =>
      have single := begunConfigured.burst_eq.trans bursts
      rcases cleared_of_channels begunServes single writes ranStaging isMotor
        (begunWiring ▸ wired) with ⟨call, callMem, cleared⟩
      simp only [true_or, iff_true]
      exact ⟨call, List.mem_append_left _ callMem, cleared⟩
  | true =>
      have begunBursts := begunConfigured.burst_eq.trans bursts
      have stagedBursts : staged.burst = true :=
        (congrArg Wiring.burst stagedWiring).trans begunBursts
      have ran : link.run (earlier ++ .beginFrame :: staging) =
          .ok (staged, before ++ (idle.beginFrame.2 ++ loading)) :=
        Link.run_append_eq_ok_iff.mpr ⟨idle, before, _, ranEarlier,
          Link.run_cons_eq_ok_iff.mpr ⟨_, _, _, rfl, ranStaging, rfl⟩, rfl⟩
      have written : link.wiring.Writes timer (earlier ++ .beginFrame :: staging) := by
        rcases writes.write_mem motor isMotor with ⟨throttle, write⟩
        rcases Link.exists_motor?_of_channel? wired with ⟨state, found, rfl⟩
        refine ⟨motor, throttle, state.channel, by simp [write], wired, ?_⟩
        exact (serves_of_fresh fresh motor state found).1
      simp only [Bool.true_eq_false, false_or]
      exact cleared_iff_of_burst begunBursts sound writes ranStaging
        ((tracks.run ran).starts_iff_of_burst known stagedBursts written)

/-- The reply of motor 1 does not come in time. Its capture is broken off when the next frame
begins, and its flag is cleared in that frame. -/
theorem abandoned_flag_cleared_iff_of_late_reply :
    ∃ link init idle before staged loading front rest,
      Link.connect { motorCount := 2 } {} (new 240000000 0).answer = .ok (link, init) ∧
      link.run (Link.frameOps 2 (fun _ => 100) ++ [.transferDone 1 .nothing,
        .transferDone 0 .nothing, .transferDone 0 .nothing]) = .ok (idle, before) ∧
      idle.beginFrame.1.run [.write 1 90, .send .all .beacon1, .write 0 60] =
        .ok (staged, loading) ∧
      idle.beginFrame.2 = front ++ .halt ⟨timer, 1⟩ :: rest ∧
      ((accessesAfter (new 240000000 0) (init ++ before ++ front ++ [.halt ⟨timer, 1⟩])
          (rest ++ loading ++ staged.endFrame.2)).any
          (Access.clearsCompletion (streamOf 1)) = true ↔
        false = false ∨ 1 = 0 ∧ staged.commands.LetsOut) := by
  have speaking : ({ motorCount := 2 } : MotorSettings).telemetry = true := rfl
  have fits : Timing.Fits {} := by decide
  have writes : Link.WritesEach 2 [.write 1 90, .send .all .beacon1, .write 0 60] := by
    refine ⟨?_, by simp⟩
    intro motor isMotor
    interval_cases motor
    · exact ⟨60, by simp⟩
    · exact ⟨90, by simp⟩
  rcases abandoned_flag_cleared_iff speaking fits 240000000 0 with ⟨link, init, connected, frames⟩
  rcases frames (Link.frameOps 2 (fun _ => 100) ++ [.transferDone 1 .nothing,
      .transferDone 0 .nothing, .transferDone 0 .nothing])
    [.write 1 90, .send .all .beacon1, .write 0 60] writes with
    ⟨idle, before, staged, loading, ranEarlier, ranStaging, _, cleared⟩
  have wired : link.wiring.channel? 1 = some ⟨timer, 1⟩ := by
    cases connected
    rfl
  have split : idle.beginFrame.2 = [.drive ⟨timer, 0⟩] ++ .halt ⟨timer, 1⟩ ::
      [.drive ⟨timer, 1⟩, .enable ⟨timer, 0⟩, .enable ⟨timer, 1⟩] := by
    cases connected
    cases ranEarlier
    rfl
  exact ⟨link, init, idle, before, staged, loading, _, _, connected, ranEarlier, ranStaging, split,
    cleared 1 _ _ _ wired split⟩

/-- With bursts, the flag of a capture of motor 1 that was broken off is still there when the frame
is sent. -/
theorem burst_leaves_abandoned_flag :
    ∃ link init idle before staged loading front rest,
      Link.connect { motorCount := 2, burst := true } {} (new 240000000 0).answer =
        .ok (link, init) ∧
      link.run (Link.frameOps 2 (fun _ => 100) ++ [.transferDone 0 .nothing,
        .transferDone 0 .nothing]) = .ok (idle, before) ∧
      idle.beginFrame.1.run (Link.writeOps 2 fun _ => 100) = .ok (staged, loading) ∧
      idle.beginFrame.2 = front ++ .halt ⟨timer, 1⟩ :: rest ∧
      staged.commands.LetsOut ∧
      (accessesAfter (new 240000000 0) (init ++ before ++ front ++ [.halt ⟨timer, 1⟩])
        (rest ++ loading ++ staged.endFrame.2)).any
        (Access.clearsCompletion (streamOf 1)) = false := by
  refine ⟨_, _, _, _, _, _, [.drive ⟨timer, 0⟩],
    [.drive ⟨timer, 1⟩, .enable ⟨timer, 0⟩, .enable ⟨timer, 1⟩], rfl, rfl, rfl, rfl, ?_, ?_⟩
  · exact .inl rfl
  · rfl

end Board

end Rotor

import Mathlib.Data.List.Forall2
import Rotor.Proofs.Link.Core
import Rotor.Proofs.Link.Transmission

/-!
# Bursts and single channels agree

A link can serve each channel by itself or all channels of a timer with one burst. This file runs
the two side by side over the same frames and commands. `Link.Agree` says that two links have the
same core, and a frame keeps this: both stage every motor before they start anything, and after the
exchange all motors have been turned in the one mode as in the other.
-/

namespace Rotor

namespace Link

/-- What happens to a link between two looks at it. -/
inductive Event
  /-- A command is queued. -/
  | send (target : Target) (command : Command)
  /-- A frame is sent and its transfers complete. -/
  | frame (throttles : Nat → UInt16) (replies : Nat → Option Capture)

/-- What an event brings about, apart from the change of the link. -/
inductive Outcome
  | answered (accepted : Bool)
  | called (calls : List Call)

/-- Lets an event happen. -/
def perform (link : Link) : Event → Except Fault (Link × Outcome)
  | .send target command =>
    .ok ((link.send target command).2, .answered (link.send target command).1)
  | .frame throttles replies => do
    let (next, calls) ← link.frame throttles replies
    return (next, .called calls)

/-- Lets events happen one after the other. -/
def play (link : Link) : List Event → Except Fault (Link × List Outcome)
  | [] => .ok (link, [])
  | event :: rest => do
    let (next, outcome) ← link.perform event
    let (last, outcomes) ← play next rest
    return (last, outcome :: outcomes)

/-- A frame that was sent channel by channel and one that was sent in bursts are the same frame:
the same timers are started, and the lanes of a burst are what was loaded for its motors. -/
structure SameFrame (channel? : Nat → Option Channel) (single burst : List Call) : Prop where
  started : ∀ timer, (∃ words, .burst timer words ∈ burst) ↔
    ∃ channels, .start timer channels ∈ single
  lanes : ∀ {timer words motor channel}, .burst timer words ∈ burst →
    channel? motor = some channel → channel.timer = timer →
      lastLoad channel single = some (lane words channel.index.toNat)

/-- The same event has the same outcome with single channels and with bursts. -/
inductive Outcome.Matches (channel? : Nat → Option Channel) : Outcome → Outcome → Prop
  | answered (accepted : Bool) : Matches channel? (.answered accepted) (.answered accepted)
  | called {single burst : List Call} (same : SameFrame channel? single burst) :
      Matches channel? (.called single) (.called burst)

/-- Two links, of which the second works with bursts, have the same core. -/
structure Agree (single burst : Link) : Prop where
  same_core : burst.core = single.core
  single_mode : single.burst = false
  burst_mode : burst.burst = true
  single_sound : single.Sound
  burst_sound : burst.Sound

variable {single burst next burstNext : Link} {ops : List Op} {calls burstCalls : List Call}

namespace Agree

theorem motor?_eq (agree : Agree single burst) (motor : Nat) :
    burst.motor? motor = single.motor? motor :=
  congrArg (·.motor? motor) agree.same_core

theorem commands_eq (agree : Agree single burst) : burst.commands = single.commands :=
  congrArg (·.commands) agree.same_core

theorem channel?_eq (agree : Agree single burst) :
    burst.wiring.channel? = single.wiring.channel? := by
  funext motor
  exact congrArg (Option.map MotorState.channel) (agree.motor?_eq motor)

theorem motorCount_eq (agree : Agree single burst) : burst.motorCount = single.motorCount :=
  congrArg (·.motorCount) agree.same_core

/-- Two links still agree after anything that both do to their cores. -/
theorem of_effects (agree : Agree single burst) (core : burstNext.core = next.core)
    (wiring : next.wiring = single.wiring) (burstWiring : burstNext.wiring = burst.wiring)
    (sound : next.Sound) (burstSound : burstNext.Sound) : Agree next burstNext :=
  ⟨core, (congrArg Wiring.burst wiring).trans agree.single_mode,
    (congrArg Wiring.burst burstWiring).trans agree.burst_mode, sound, burstSound⟩

/-- The beginning of a frame and its writes do the same to two links that agree. -/
theorem staged {op : Op} (agree : Agree single burst)
    (staging : op = .beginFrame ∨ ∃ motor throttle, op = .write motor throttle)
    (effect : single.Effect op next calls) (burstEffect : burst.Effect op burstNext burstCalls) :
    Agree next burstNext := by
  refine agree.of_effects ?_ (wiring_effect effect) (wiring_effect burstEffect)
    (sound_effect agree.single_sound effect) (sound_effect agree.burst_sound burstEffect)
  rcases staging with rfl | ⟨motor, throttle, rfl⟩
  · cases effect
    cases burstEffect
    rw [core_beginFrame, core_beginFrame, agree.same_core]
  · have same := agree.motor?_eq motor
    cases effect with
    | writeAbsent throttle absent =>
        cases burstEffect with
        | writeAbsent throttle burstAbsent => exact agree.same_core
        | write throttle burstFound => simp [absent, burstFound] at same
    | write throttle found =>
        cases burstEffect with
        | writeAbsent throttle burstAbsent => simp [burstAbsent, found] at same
        | write throttle burstFound => rw [core_staged, core_staged, agree.same_core]

theorem run (agree : Agree single burst)
    (staging : ∀ op ∈ ops, op = .beginFrame ∨ ∃ motor throttle, op = .write motor throttle)
    (ran : single.run ops = .ok (next, calls))
    (burstRan : burst.run ops = .ok (burstNext, burstCalls)) :
    Agree next burstNext := by
  induction ops generalizing single burst calls burstCalls with
  | nil =>
      cases ran
      cases burstRan
      exact agree
  | cons op rest ih =>
      rcases run_cons_eq_ok_iff.mp ran with ⟨mid, _, _, step, later, _⟩
      rcases run_cons_eq_ok_iff.mp burstRan with ⟨burstMid, _, _, burstStep, burstLater, _⟩
      rw [List.forall_mem_cons] at staging
      exact ih (agree.staged staging.1 (effect_of_step step) (effect_of_step burstStep)) staging.2
        later burstLater

/-- Where every motor is due, the end of a frame does the same to two links that agree. -/
theorem endFrame (agree : Agree single burst)
    (due : ∀ motor state, single.motor? motor = some state →
      single.isDue state.channel = true ∧ burst.isDue state.channel = true) :
    Agree single.endFrame.1 burst.endFrame.1 := by
  have effect := effect_endFrame single
  have burstEffect := effect_endFrame burst
  refine agree.of_effects ?_ (wiring_effect effect) (wiring_effect burstEffect)
    (sound_effect agree.single_sound effect) (sound_effect agree.burst_sound burstEffect)
  rcases ticked : single.commands.tick with ⟨released, commands⟩
  have burstTicked : burst.commands.tick = (released, commands) := by
    rw [agree.commands_eq, ticked]
  have sameAfter : ({ burst with commands } : Link).core = ({ single with commands } : Link).core :=
    congrArg (fun core : Link => { core with commands }) agree.same_core
  cases released with
  | false =>
      rw [endFrame_of_held ticked, endFrame_of_held burstTicked]
      exact sameAfter
  | true =>
      rw [endFrame_of_released ticked, endFrame_of_released burstTicked, core_fire, core_fire,
        sameAfter]
      · intro motor state found
        exact (due motor state found).1
      · intro motor state found
        exact (due motor state ((agree.motor?_eq motor).symm.trans found)).2

end Agree

section Exchange

/-- Completing the transfers of a motor is a run of completed transfers. -/
theorem exists_run_completeMotor (link : Link) (motor : Nat) (reply : Option Capture) :
    ∃ ops : List Op, (∀ op ∈ ops, op.isAside = true) ∧
      link.run ops = .ok (link.completeMotor motor reply) := by
  have single (link : Link) (capture : Capture) :
      link.run [.transferDone motor capture] = .ok (link.transferDone motor capture) := by
    simp [run, step, bind, Except.bind, pure, Except.pure]
  by_cases drives : link.direction motor = some .output
  · cases reply with
    | none =>
        refine ⟨[.transferDone motor .nothing], by simp [Op.isAside], ?_⟩
        simp [single, completeMotor, drives]
    | some capture =>
        refine ⟨[.transferDone motor .nothing] ++ [.transferDone motor capture],
          by simp [Op.isAside], ?_⟩
        have completed : link.completeMotor motor (some capture) =
            (((link.transferDone motor .nothing).1.transferDone motor capture).1,
              (link.transferDone motor .nothing).2 ++
                ((link.transferDone motor .nothing).1.transferDone motor capture).2) := by
          simp [completeMotor, drives]
        rw [completed]
        exact run_append_eq_ok_iff.mpr ⟨_, _, _, single _ _, single _ _, rfl⟩
  · cases reply with
    | none => exact ⟨[], by simp, by simp [run, completeMotor, drives]⟩
    | some capture =>
        refine ⟨[.transferDone motor capture], by simp [Op.isAside], ?_⟩
        simp [single, completeMotor, drives]

theorem exists_run_completeMotors (link : Link) (replies : Nat → Option Capture)
    (motors : List Nat) :
    ∃ ops : List Op, (∀ op ∈ ops, op.isAside = true) ∧
      link.run ops = .ok (link.completeMotors replies motors) := by
  induction motors generalizing link with
  | nil => exact ⟨[], by simp, rfl⟩
  | cons motor rest ih =>
      rcases exists_run_completeMotor link motor (replies motor) with ⟨first, firstAside, ran⟩
      rcases ih (link.completeMotor motor (replies motor)).1 with ⟨later, laterAside, laterRan⟩
      exact ⟨first ++ later, List.forall_mem_append.mpr ⟨firstAside, laterAside⟩,
        run_append_eq_ok_iff.mpr ⟨_, _, _, ran, laterRan, rfl⟩⟩

theorem quiet_run_of_asides {link : Link} (sound : link.Sound)
    (asides : ∀ op ∈ ops, op.isAside = true) (run : link.run ops = .ok (next, calls)) :
    ∀ call ∈ calls, call.sends = false := by
  refine run_induction (motive := fun ops _ calls =>
    (∀ op ∈ ops, op.isAside = true) → ∀ call ∈ calls, call.sends = false) sound ?_ ?_ run asides
  · simp
  · intro ops mid calls op next made _ _ _ quiet effect asides
    have aside := asides op (by simp)
    have earlier := quiet (fun op opMem => asides op (by simp [opMem]))
    refine List.forall_mem_append.mpr ⟨earlier, ?_⟩
    cases effect with
    | transferDone target capture => exact quiet_transferDone mid target capture
    | send target command => simp
    | _ => simp [Op.isAside] at aside

variable {link : Link}

theorem sound_exchange (sound : link.Sound) (replies : Nat → Option Capture) :
    (link.exchange replies).1.Sound := by
  rcases exists_run_completeMotors link replies (List.range link.motorCount) with ⟨ops, _, ran⟩
  exact sound_run sound ran

theorem wiring_exchange (link : Link) (replies : Nat → Option Capture) :
    (link.exchange replies).1.wiring = link.wiring := by
  rcases exists_run_completeMotors link replies (List.range link.motorCount) with ⟨ops, _, ran⟩
  exact wiring_run ran

theorem quiet_exchange (sound : link.Sound) (replies : Nat → Option Capture) :
    ∀ call ∈ (link.exchange replies).2, call.sends = false := by
  rcases exists_run_completeMotors link replies (List.range link.motorCount) with
    ⟨ops, asides, ran⟩
  exact quiet_run_of_asides sound asides ran

/-- After the exchange, two links that agreed before it agree again. -/
theorem Agree.exchange (agree : Agree single burst) (replies : Nat → Option Capture) :
    Agree (single.exchange replies).1 (burst.exchange replies).1 := by
  have outside (link : Link) (motor : Nat) (beyond : motor ∉ List.range link.motorCount) :
      link.direction motor ≠ some .output := by
    rw [List.mem_range, Nat.not_lt] at beyond
    simp [direction, motor?_eq_none_of_le beyond]
  refine agree.of_effects ?_ (wiring_exchange single replies)
    (wiring_exchange burst replies) (sound_exchange agree.single_sound replies)
    (sound_exchange agree.burst_sound replies)
  unfold Link.exchange
  rw [core_completeMotors replies (outside single), core_completeMotors replies (outside burst),
    agree.same_core, agree.motorCount_eq]

end Exchange

section Frames

theorem stages_frame (count : Nat) (throttles : Nat → UInt16) :
    Stages count throttles (.beginFrame :: writeOps count throttles) := by
  refine ⟨writeOps count throttles, List.Perm.refl _, ?_⟩
  rw [List.filter_cons_of_pos (by rfl), List.filter_eq_self.mpr]
  intro op opMem
  rcases List.mem_map.mp opMem with ⟨motor, _, rfl⟩
  rfl

/-- A frame and its exchange, taken apart into what was staged, what was started and what was
completed. -/
theorem exists_frame {link : Link} (sound : link.Sound) (throttles : Nat → UInt16)
    (replies : Nat → Option Capture) :
    ∃ staged loading,
      link.run (.beginFrame :: writeOps link.motorCount throttles) = .ok (staged, loading) ∧
      link.frame throttles replies = .ok ((staged.endFrame.1.exchange replies).1,
        loading ++ staged.endFrame.2 ++ (staged.endFrame.1.exchange replies).2) := by
  rcases exists_run sound (.beginFrame :: writeOps link.motorCount throttles) with
    ⟨staged, loading, ran, _, _⟩
  refine ⟨staged, loading, ran, ?_⟩
  have ended : link.run (frameOps link.motorCount throttles) =
      .ok (staged.endFrame.1, loading ++ staged.endFrame.2) := by
    have single : staged.run [.endFrame] = .ok (staged.endFrame.1, staged.endFrame.2 ++ []) := rfl
    rw [List.append_nil] at single
    exact run_append_eq_ok_iff.mpr ⟨_, _, _, ran, single, rfl⟩
  unfold frame
  rw [ended]
  rfl

/-- Nothing is started while a frame is staged. -/
theorem quiet_staging {link staged : Link} {throttles : Nat → UInt16} {count : Nat}
    {loading : List Call} (sound : link.Sound)
    (ran : link.run (.beginFrame :: writeOps count throttles) = .ok (staged, loading)) :
    ∀ call ∈ loading, call.startedTimer? = none := by
  refine (underway_run sound ?_ ran).quiet
  intro op opMem
  exact not_endFrame_of_stages (stages_frame count throttles) opMem

/-- A call that starts a timer in a frame is made at its end. -/
theorem mem_endFrame_of_mem_frame {loading ended exchanged : List Call} {call : Call}
    (quietBefore : ∀ call ∈ loading, call.startedTimer? = none)
    (quietAfter : ∀ call ∈ exchanged, call.sends = false)
    (callMem : call ∈ loading ++ ended ++ exchanged) (starts : call.startedTimer? ≠ none) :
    call ∈ ended := by
  simp only [List.mem_append] at callMem
  rcases callMem with (before | now) | after
  · exact absurd (quietBefore call before) starts
  · exact now
  · exact absurd (Call.startedTimer?_of_quiet (quietAfter call after)) starts

variable {link : Link} {loading exchanged : List Call}

theorem exists_startCall?_of_mem_endFrame (sound : link.Sound) {call : Call}
    (callMem : call ∈ link.endFrame.2) :
    ∃ entry : TimerState, entry.startCall? link.burst = some call := by
  rcases endFrame_cases sound.commands with ⟨_, fired⟩ | ⟨_, silent⟩
  · rw [fired] at callMem
    rcases mem_calls_fire.mp callMem with ⟨entry, _, starts⟩
    exact ⟨entry, starts⟩
  · simp [silent] at callMem

/-- The timers that a frame starts are those of the calls of the one form that its link uses for
starting them. -/
theorem exists_start_of_form_iff {α : Type} (form : Timer → α → Call) (sound : link.Sound)
    (starts : ∀ timer content, (form timer content).startedTimer? = some timer)
    (uses : ∀ {entry : TimerState} {call}, entry.startCall? link.burst = some call →
      ∃ content, call = form entry.timer content)
    (quietBefore : ∀ call ∈ loading, call.startedTimer? = none)
    (quietAfter : ∀ call ∈ exchanged, call.sends = false) (timer : Timer) :
    (∃ content, form timer content ∈ loading ++ link.endFrame.2 ++ exchanged) ↔
      ∃ call ∈ link.endFrame.2, call.startedTimer? = some timer := by
  constructor
  · rintro ⟨content, callMem⟩
    have ended := mem_endFrame_of_mem_frame quietBefore quietAfter callMem (by simp [starts])
    exact ⟨_, ended, starts timer content⟩
  · rintro ⟨call, callMem, started⟩
    rcases exists_startCall?_of_mem_endFrame sound callMem with ⟨entry, starting⟩
    rcases uses starting with ⟨content, rfl⟩
    have onTimer : entry.timer = timer := by
      rw [starts] at started
      exact Option.some.inj started
    rw [onTimer] at callMem
    exact ⟨content, List.mem_append_left _ (List.mem_append_right _ callMem)⟩

end Frames

namespace Agree

variable {loading burstLoading exchanged burstExchanged : List Call}

/-- Two links that agree and have made the same words ready end the same frame. -/
theorem sameFrame (agree : Agree single burst) {words : Nat → List UInt32}
    (length_eq : ∀ motor, (words motor).length = burst.encoding.frameLength)
    (loaded : ∀ {motor channel}, single.wiring.channel? motor = some channel →
      single.Loaded loading channel (words motor) ∧
        burst.Loaded burstLoading channel (words motor))
    (quietBefore : ∀ call ∈ loading, call.startedTimer? = none)
    (quietAfter : ∀ call ∈ exchanged, call.sends = false)
    (burstBefore : ∀ call ∈ burstLoading, call.startedTimer? = none)
    (burstAfter : ∀ call ∈ burstExchanged, call.sends = false) :
    SameFrame single.wiring.channel? (loading ++ single.endFrame.2 ++ exchanged)
      (burstLoading ++ burst.endFrame.2 ++ burstExchanged) := by
  have soundSingle := agree.single_sound
  have soundBurst := agree.burst_sound
  refine ⟨?_, ?_⟩
  · intro timer
    have isBurst {entry : TimerState} {call : Call}
        (starting : entry.startCall? burst.burst = some call) :
        ∃ words, call = .burst entry.timer words := by
      have same := eq_of_startCall? starting
      rw [agree.burst_mode, if_pos rfl] at same
      exact ⟨_, same⟩
    have isStart {entry : TimerState} {call : Call}
        (starting : entry.startCall? single.burst = some call) :
        ∃ channels, call = .start entry.timer channels := by
      have same := eq_of_startCall? starting
      rw [agree.single_mode, if_neg Bool.false_ne_true] at same
      exact ⟨_, same⟩
    rw [exists_start_of_form_iff .burst soundBurst (fun _ _ => rfl) isBurst burstBefore burstAfter,
      exists_start_of_form_iff .start soundSingle (fun _ _ => rfl) isStart quietBefore quietAfter,
      exists_start_iff soundSingle (fun wired => ⟨_, (loaded wired).1⟩),
      exists_start_iff soundBurst (fun wired => ⟨_, (loaded (agree.channel?_eq ▸ wired)).2⟩),
      agree.commands_eq, agree.channel?_eq]
  · intro timer sent motor channel callMem wired onTimer
    have ended := mem_endFrame_of_mem_frame burstBefore burstAfter callMem
      (by simp [Call.startedTimer?])
    have delivers := delivers_of_mem_endFrame soundBurst (loaded wired).2 (length_eq motor) ended
      (congrArg some onTimer.symm)
    have noLoad : ∀ call ∈ single.endFrame.2, call.loadFor? channel = none := by
      intro call callMem
      rcases exists_startCall?_of_mem_endFrame soundSingle callMem with ⟨entry, starts⟩
      rw [eq_of_startCall? starts]
      split <;> rfl
    rw [lastLoad_append_of_quiet quietAfter, lastLoad_append noLoad,
      lastLoad_of_loaded soundSingle agree.single_mode wired (loaded wired).1]
    exact congrArg some delivers.2.symm

/-- Two links that agree stage the same words for every motor. -/
theorem staging {throttles : Nat → UInt16} {staged burstStaged : Link}
    (agree : Agree single burst)
    (ran : single.run (.beginFrame :: writeOps single.motorCount throttles) =
      .ok (staged, loading))
    (burstRan : burst.run (.beginFrame :: writeOps burst.motorCount throttles) =
      .ok (burstStaged, burstLoading)) :
    Agree staged burstStaged ∧
      ∀ {motor channel}, staged.wiring.channel? motor = some channel →
        staged.Loaded loading channel (single.encoding.frame
            (duePacket single.commands single.telemetry motor (throttles motor))) ∧
          burstStaged.Loaded burstLoading channel (single.encoding.frame
            (duePacket single.commands single.telemetry motor (throttles motor))) := by
  have stages := stages_frame single.motorCount throttles
  have burstStages := stages_frame burst.motorCount throttles
  have sameCommands := agree.commands_eq
  have sameEncoding : burst.encoding = single.encoding := congrArg (·.encoding) agree.same_core
  have sameTelemetry : burst.telemetry = single.telemetry := congrArg (·.telemetry) agree.same_core
  refine ⟨?_, ?_⟩
  · rw [agree.motorCount_eq] at burstRan
    apply agree.run _ ran burstRan
    intro op opMem
    rcases List.mem_cons.mp opMem with rfl | isWrite
    · exact Or.inl rfl
    · rcases List.mem_map.mp isWrite with ⟨motor, _, rfl⟩
      exact Or.inr ⟨motor, _, rfl⟩
  · intro motor channel wired
    rw [wiring_run ran] at wired
    refine ⟨loaded_of_stages agree.single_sound stages ran wired, ?_⟩
    rw [← sameCommands, ← sameEncoding, ← sameTelemetry]
    exact loaded_of_stages agree.burst_sound burstStages burstRan (agree.channel?_eq ▸ wired)

/-- A frame keeps the agreement of two links, and it is the same frame for both. -/
theorem frame (agree : Agree single burst) (throttles : Nat → UInt16)
    (replies : Nat → Option Capture) :
    ∃ next calls burstNext burstCalls,
      single.frame throttles replies = .ok (next, calls) ∧
      burst.frame throttles replies = .ok (burstNext, burstCalls) ∧
      Agree next burstNext ∧ next.wiring = single.wiring ∧
      SameFrame single.wiring.channel? calls burstCalls := by
  rcases exists_frame agree.single_sound throttles replies with ⟨staged, loading, ran, framed⟩
  rcases exists_frame agree.burst_sound throttles replies with
    ⟨burstStaged, burstLoading, burstRan, burstFramed⟩
  rcases agree.staging ran burstRan with ⟨agreeStaged, loaded⟩
  have agreeEnded : Agree staged.endFrame.1 burstStaged.endFrame.1 := by
    apply agreeStaged.endFrame
    intro motor state found
    have wired := channel?_wiring found
    exact ⟨isDue_of_loaded agreeStaged.single_sound wired (loaded wired).1,
      isDue_of_loaded agreeStaged.burst_sound (agreeStaged.channel?_eq ▸ wired) (loaded wired).2⟩
  have stagedWiring := wiring_run ran
  have lengths (motor : Nat) : (single.encoding.frame
      (duePacket single.commands single.telemetry motor (throttles motor))).length =
        burstStaged.encoding.frameLength := by
    have encoding : burstStaged.encoding = staged.encoding :=
      congrArg (·.encoding) agreeStaged.same_core
    have stagedEncoding : staged.encoding = single.encoding :=
      congrArg Wiring.encoding stagedWiring
    rw [encoding, stagedEncoding, Encoding.length_frame]
  refine ⟨_, _, _, _, framed, burstFramed, agreeEnded.exchange replies, ?_, ?_⟩
  · rw [wiring_exchange, wiring_effect (effect_endFrame staged),
      stagedWiring]
  · rw [← stagedWiring]
    exact agreeStaged.sameFrame lengths loaded (quiet_staging agree.single_sound ran)
      (quiet_exchange agreeEnded.single_sound replies) (quiet_staging agree.burst_sound burstRan)
      (quiet_exchange agreeEnded.burst_sound replies)

theorem send (agree : Agree single burst) (target : Target) (command : Command) :
    Agree (single.send target command).2 (burst.send target command).2 ∧
      (burst.send target command).1 = (single.send target command).1 := by
  have effect : single.Effect (.send target command) (single.send target command).2 [] :=
    effect_of_step rfl
  have burstEffect : burst.Effect (.send target command) (burst.send target command).2 [] :=
    effect_of_step rfl
  have sent := congrArg (fun core : Link => (core.send target command).2) agree.same_core
  have answer := congrArg (fun core : Link => (core.send target command).1) agree.same_core
  exact ⟨agree.of_effects sent rfl rfl (sound_effect agree.single_sound effect)
    (sound_effect agree.burst_sound burstEffect), answer⟩

/-- An event keeps the agreement of two links, and has the same outcome for both. -/
theorem perform (agree : Agree single burst) (event : Event) :
    ∃ next outcome burstNext burstOutcome,
      single.perform event = .ok (next, outcome) ∧
      burst.perform event = .ok (burstNext, burstOutcome) ∧
      Agree next burstNext ∧ next.wiring = single.wiring ∧
      outcome.Matches single.wiring.channel? burstOutcome := by
  cases event with
  | send target command =>
      rcases agree.send target command with ⟨agreeSent, answer⟩
      refine ⟨_, _, _, _, rfl, rfl, agreeSent, rfl, ?_⟩
      rw [answer]
      exact .answered _
  | frame throttles replies =>
      rcases agree.frame throttles replies with
        ⟨next, calls, burstNext, burstCalls, framed, burstFramed, agreeNext, wiring, same⟩
      refine ⟨next, .called calls, burstNext, .called burstCalls, ?_, ?_, agreeNext, wiring,
        .called same⟩
      · rw [Link.perform, framed]
        rfl
      · rw [Link.perform, burstFramed]
        rfl

theorem play (agree : Agree single burst) (events : List Event) :
    ∃ last outcomes burstLast burstOutcomes,
      single.play events = .ok (last, outcomes) ∧
      burst.play events = .ok (burstLast, burstOutcomes) ∧
      Agree last burstLast ∧
      List.Forall₂ (Outcome.Matches single.wiring.channel?) outcomes burstOutcomes := by
  induction events generalizing single burst with
  | nil => exact ⟨single, [], burst, [], rfl, rfl, agree, .nil⟩
  | cons event rest ih =>
      rcases agree.perform event with
        ⟨next, outcome, burstNext, burstOutcome, performed, burstPerformed, agreeNext, wiring, same⟩
      rcases ih agreeNext with
        ⟨last, outcomes, burstLast, burstOutcomes, played, burstPlayed, agreeLast, later⟩
      rw [wiring] at later
      refine ⟨last, outcome :: outcomes, burstLast, burstOutcome :: burstOutcomes, ?_, ?_,
        agreeLast, .cons same later⟩
      · rw [Link.play, performed]
        dsimp only [bind, Except.bind]
        rw [played]
        rfl
      · rw [Link.play, burstPerformed]
        dsimp only [bind, Except.bind]
        rw [burstPlayed]
        rfl

end Agree

section Connect

/-- Connected with the same settings but for the mode, two links agree. -/
theorem exists_agree {settings : MotorSettings} {timing : Timing}
    {answers : Nat → Except ClaimError Channel} (distinct : DistinctAnswers settings answers)
    (fits : timing.Fits) :
    ∃ single init burst burstInit,
      connect { settings with burst := false } timing answers = .ok (single, init) ∧
      connect { settings with burst := true } timing answers = .ok (burst, burstInit) ∧
      Agree single burst := by
  have distinctFor (mode : Bool) : DistinctAnswers { settings with burst := mode } answers :=
    ⟨distinct.index_lt, distinct.distinct⟩
  rcases exists_connect (distinctFor false) fits with ⟨single, init, connected, fresh⟩
  rcases exists_connect (distinctFor true) fits with
    ⟨burst, burstInit, burstConnected, burstFresh⟩
  refine ⟨single, init, burst, burstInit, connected, burstConnected, ?_, fresh.burst_eq,
    burstFresh.burst_eq, fresh.sound, burstFresh.sound⟩
  rcases loopMicros_of_fits fits with ⟨micros, loopMicros⟩
  rw [connect, loopMicros] at connected burstConnected
  cases connected
  cases burstConnected
  have sameCount : ({ settings with burst := true } : MotorSettings).claimCount =
      ({ settings with burst := false } : MotorSettings).claimCount := rfl
  simp [core, motors_claimAll_congr sameCount answers]

end Connect

/-- A link that works with bursts and one that serves each channel by itself agree in everything
that they show, whatever frames and commands they are given: in their answers to commands, in what
each frame sends, and in what they know of the motors and count afterwards. -/
theorem burst_agrees_with_channels {settings : MotorSettings} {timing : Timing}
    {answers : Nat → Except ClaimError Channel} (distinct : DistinctAnswers settings answers)
    (fits : timing.Fits) :
    ∃ single init burst burstInit,
      connect { settings with burst := false } timing answers = .ok (single, init) ∧
      connect { settings with burst := true } timing answers = .ok (burst, burstInit) ∧
      ∀ events : List Event, ∃ last outcomes burstLast burstOutcomes,
        single.play events = .ok (last, outcomes) ∧
        burst.play events = .ok (burstLast, burstOutcomes) ∧
        List.Forall₂ (Outcome.Matches single.wiring.channel?) outcomes burstOutcomes ∧
        (∀ motor, burstLast.telemetryOf motor = last.telemetryOf motor ∧
          burstLast.valueOf motor = last.valueOf motor ∧
          burstLast.direction motor = last.direction motor) ∧
        burstLast.hasCommand = last.hasCommand ∧ burstLast.counters = last.counters := by
  rcases exists_agree distinct fits with
    ⟨single, init, burst, burstInit, connected, burstConnected, agree⟩
  refine ⟨single, init, burst, burstInit, connected, burstConnected, ?_⟩
  intro events
  rcases agree.play events with
    ⟨last, outcomes, burstLast, burstOutcomes, played, burstPlayed, agreeLast, same⟩
  refine ⟨last, outcomes, burstLast, burstOutcomes, played, burstPlayed, same, ?_, ?_, ?_⟩
  · intro motor
    simp only [telemetryOf, valueOf, direction, agreeLast.motor?_eq motor, and_self]
  · exact congrArg Queue.isBusy agreeLast.commands_eq
  · exact congrArg (·.counters) agreeLast.same_core

/-- Two frames around a command. In the second one motor 3 does not answer. -/
theorem burst_agrees_with_channels_around_command :
    ∃ single init burst burstInit last outcomes burstLast burstOutcomes,
      connect {} {} (Bench.inOrder [(1, .channelInUse)]).answer = .ok (single, init) ∧
      connect { burst := true } {} (Bench.inOrder [(1, .channelInUse)]).answer =
        .ok (burst, burstInit) ∧
      single.play [.frame (fun _ => 100) fun _ => some (.ofWords [5]), .send .all .beacon1,
        .frame (fun motor => 48 + UInt16.ofNat motor) fun motor =>
          if motor = 3 then none else some .nothing] = .ok (last, outcomes) ∧
      burst.play [.frame (fun _ => 100) fun _ => some (.ofWords [5]), .send .all .beacon1,
        .frame (fun motor => 48 + UInt16.ofNat motor) fun motor =>
          if motor = 3 then none else some .nothing] = .ok (burstLast, burstOutcomes) ∧
      List.Forall₂ (Outcome.Matches single.wiring.channel?) outcomes burstOutcomes ∧
      (∀ motor, burstLast.telemetryOf motor = last.telemetryOf motor ∧
        burstLast.valueOf motor = last.valueOf motor ∧
        burstLast.direction motor = last.direction motor) ∧
      burstLast.hasCommand = last.hasCommand ∧ burstLast.counters = last.counters := by
  have fits : Timing.Fits {} := by decide
  have distinct := Bench.distinctAnswers_inOrder [(1, .channelInUse)] {}
  rcases burst_agrees_with_channels distinct fits with
    ⟨single, init, burst, burstInit, connected, burstConnected, agrees⟩
  rcases agrees [.frame (fun _ => 100) fun _ => some (.ofWords [5]), .send .all .beacon1,
    .frame (fun motor => 48 + UInt16.ofNat motor) fun motor =>
      if motor = 3 then none else some .nothing] with
    ⟨last, outcomes, burstLast, burstOutcomes, played, burstPlayed, same⟩
  exact ⟨single, init, burst, burstInit, last, outcomes, burstLast, burstOutcomes, connected,
    burstConnected, played, burstPlayed, same⟩

end Link

end Rotor

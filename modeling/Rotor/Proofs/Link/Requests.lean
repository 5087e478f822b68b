import Rotor.Proofs.Link.Balance
import Rotor.Proofs.Link.Mirror

/-!
# Requests are off while a frame is staged

A channel that is armed asks for the edges of its wire, and one that is started asks for the words
of its frame; halting it ends either. What was loaded must stay where it is until the timer starts,
so a channel has to rest before it is loaded: it drives its wire, and its request is off.

The beginning of a frame halts only the channels whose capture has not come. The others rest on the
other half of the invariant (`Link.Calm`): a capture waits in a mailbox only after its channel was
halted, and as long as it waits nothing lets the channel ask again.
-/

namespace Rotor

namespace Call

/-- Whether a call switches the request of a channel on or off, none for a call that does
neither. -/
def requests? (channel : Channel) : Call → Option Bool
  | .arm other _ => if other = channel then some true else none
  | .start timer channels =>
    if (Call.start timer channels).startsChannel channel then some true else none
  | .halt other => if other = channel then some false else none
  | _ => none

/-- Whether a call leaves a channel alone: it neither turns it nor switches its request. -/
def Spares (channel : Channel) (call : Call) : Prop :=
  call.turns? channel = none ∧ call.requests? channel = none

/-- Whether a call loads a channel, or starts one that is in use. -/
def Stages (inUse : Channel → Prop) (channel : Channel) (call : Call) : Prop :=
  (∃ words, call = .load channel words) ∨ inUse channel ∧ call.startsChannel channel = true

theorem requests?_halt (channel : Channel) : (Call.halt channel).requests? channel = some false :=
  if_pos rfl

end Call

/-- How the request of a channel was switched last. -/
def lastRequest (channel : Channel) (calls : List Call) : Option Bool :=
  (calls.filterMap (Call.requests? channel)).getLast?

/-- A channel that was last turned to output, and whose request was last switched off. -/
structure Rests (channel : Channel) (calls : List Call) : Prop where
  turn_eq : lastTurn channel calls = some .output
  request_eq : lastRequest channel calls = some false

/-- Among calls that follow earlier ones, every call that stages a channel finds it at rest. -/
def StagesAtRest (inUse : Channel → Prop) (earlier calls : List Call) : Prop :=
  ∀ before call after channel, calls = before ++ call :: after → call.Stages inUse channel →
    Rests channel (earlier ++ before)

section Traces

variable {channel : Channel} {calls made earlier : List Call} {inUse : Channel → Prop}

theorem lastRequest_append (channel : Channel) (calls made : List Call) :
    lastRequest channel (calls ++ made) =
      (lastRequest channel made).or (lastRequest channel calls) := by
  simp [lastRequest, List.getLast?_append]

/-- A request that is off stays off as long as nothing switches it on. -/
theorem lastRequest_append_of_off (off : lastRequest channel calls = some false)
    (noneOn : ∀ call ∈ made, call.requests? channel ≠ some true) :
    lastRequest channel (calls ++ made) = some false := by
  rw [lastRequest_append]
  cases last : lastRequest channel made with
  | none => exact off
  | some on =>
      rcases List.mem_filterMap.mp (List.mem_of_getLast? last) with ⟨call, callMem, switched⟩
      cases on with
      | false => rfl
      | true => exact absurd switched (noneOn call callMem)

/-- A channel that is halted and not switched on has its request off. -/
theorem lastRequest_append_of_halt (halted : .halt channel ∈ made)
    (noneOn : ∀ call ∈ made, call.requests? channel ≠ some true) :
    lastRequest channel (calls ++ made) = some false := by
  have off : lastRequest channel made = some false := by
    apply getLast?_filterMap_of_only halted (Call.requests?_halt channel)
    intro call callMem on switched
    cases on with
    | false => rfl
    | true => exact absurd switched (noneOn call callMem)
  rw [lastRequest_append, off]
  rfl

theorem Rests.append_of_spares (rests : Rests channel calls)
    (spares : ∀ call ∈ made, call.Spares channel) : Rests channel (calls ++ made) := by
  have noTurn : made.filterMap (Call.turns? channel) = [] := by
    rw [List.filterMap_eq_nil_iff]
    exact fun call callMem => (spares call callMem).1
  have noRequest : made.filterMap (Call.requests? channel) = [] := by
    rw [List.filterMap_eq_nil_iff]
    exact fun call callMem => (spares call callMem).2
  refine ⟨?_, ?_⟩
  · rw [lastTurn_append, lastTurn, noTurn]
    exact rests.turn_eq
  · rw [lastRequest_append, lastRequest, noRequest]
    exact rests.request_eq

theorem stagesAtRest_of_quiet (quiet : ∀ call ∈ calls, call.sends = false) :
    StagesAtRest inUse earlier calls := by
  rintro before call after channel rfl stages
  have sends := quiet call (by simp)
  rcases stages with ⟨words, rfl⟩ | ⟨_, starts⟩
  · cases sends
  · rw [Call.startsChannel_of_quiet sends] at starts
    cases starts

theorem StagesAtRest.append (front : StagesAtRest inUse earlier calls)
    (back : StagesAtRest inUse (earlier ++ calls) made) :
    StagesAtRest inUse earlier (calls ++ made) := by
  intro before call after channel split stages
  rcases List.append_eq_append_iff.mp split with ⟨middle, rfl, later⟩ | ⟨middle, rfl, later⟩
  · rw [← List.append_assoc]
    exact back middle call after channel later stages
  · cases middle with
    | nil => simpa using back [] call after channel later.symm stages
    | cons head middle =>
        obtain ⟨rfl, rfl⟩ := List.cons.inj later
        exact front before call middle channel rfl stages

end Traces

theorem MotorState.halt_mem_beginCalls_iff {state : MotorState} {encoding : Encoding}
    {channel : Channel} :
    .halt channel ∈ state.beginCalls encoding ↔
      state.channel = channel ∧ state.mailbox.isFull = false := by
  have isFull := isFull_eq_reply state encoding
  unfold beginCalls
  cases reply : state.reply encoding with
  | valid payload =>
      have full : state.mailbox.isFull = true := by
        simpa [reply, Reply.isDamaged, Reply.isValid] using isFull
      simp [full]
  | damaged edges =>
      have full : state.mailbox.isFull = true := by
        simpa [reply, Reply.isDamaged, Reply.isValid] using isFull
      simp [full]
  | missing overdue =>
      have empty : state.mailbox.isFull = false := by
        simpa [reply, Reply.isDamaged, Reply.isValid] using isFull
      simp [empty, eq_comm]

/-- Nobody waits for collection once a frame has begun. -/
theorem MotorState.phase_begin_ne_full (state : MotorState) (encoding : Encoding) :
    (state.begin encoding).mailbox.phase ≠ .full := by
  unfold MotorState.begin Mailbox.collect
  split
  · simp
  · assumption

namespace Link

variable {link next last : Link} {motor : Nat} {state : MotorState} {moment after : Moment}
  {trace made : List Call} {op : Op}

/-- The beginning of a frame breaks off a capture that has not come. -/
theorem halt_mem_beginFrame (speaking : link.telemetry = true)
    (found : link.motor? motor = some state) (empty : state.mailbox.isFull = false) :
    .halt state.channel ∈ link.beginFrame.2 := by
  rw [calls_beginFrame speaking, List.mem_append, List.mem_flatMap]
  exact .inl ⟨state, mem_connected.mpr ⟨motor, found⟩,
    MotorState.halt_mem_beginCalls_iff.mpr ⟨rfl, empty⟩⟩

section Calm

/-- What keeps requests off while a frame is staged. A capture that waits came through a channel
that still is at input and was halted after it. Within a frame no capture waits, and all channels
rest. -/
structure Calm (moment : Moment) (link : Link) (trace : List Call) : Prop where
  halted : ∀ motor state, link.motor? motor = some state → state.mailbox.phase = .full →
    state.direction = .input ∧ lastRequest state.channel trace = some false
  collected : moment = .within → ∀ motor state, link.motor? motor = some state →
    state.mailbox.phase ≠ .full
  resting : moment = .within → ∀ motor state, link.motor? motor = some state →
    Rests state.channel trace

/-- The beginning of a frame switches no request on. -/
theorem requests?_of_mem_beginFrame {call : Call} (callMem : call ∈ link.beginFrame.2)
    (channel : Channel) : call.requests? channel ≠ some true := by
  rcases Bool.eq_false_or_eq_true link.telemetry with speaking | silent
  · rw [calls_beginFrame speaking, List.mem_append, List.mem_flatMap, List.mem_map] at callMem
    rcases callMem with ⟨state, _, callMem⟩ | ⟨state, _, rfl⟩
    · rcases mem_beginCalls callMem with rfl | rfl <;> simp [Call.requests?]
    · simp [Call.requests?]
  · simp [beginFrame_of_silent silent] at callMem

theorem Calm.beginFrame (calm : Calm moment link trace) (speaking : link.telemetry = true) :
    Calm .within link.beginFrame.1 (trace ++ link.beginFrame.2) := by
  have begun (motor : Nat) (state : MotorState)
      (found : link.beginFrame.1.motor? motor = some state) :
      ∃ before, link.motor? motor = some before ∧ before.begin link.encoding = state := by
    rw [motor?_beginFrame speaking] at found
    exact Option.map_eq_some_iff.mp found
  have collected (motor : Nat) (state : MotorState)
      (found : link.beginFrame.1.motor? motor = some state) : state.mailbox.phase ≠ .full := by
    rcases begun motor state found with ⟨before, _, rfl⟩
    exact before.phase_begin_ne_full link.encoding
  refine ⟨fun motor state found full => absurd full (collected motor state found),
    fun _ => collected, ?_⟩
  intro _ motor state found
  rcases begun motor state found with ⟨before, foundBefore, rfl⟩
  have noneOn (call : Call) (callMem : call ∈ link.beginFrame.2) :=
    requests?_of_mem_beginFrame callMem before.channel
  refine ⟨?_, ?_⟩
  · have driven : lastTurn before.channel link.beginFrame.2 = some .output :=
      lastTurn_of_no_listen (drive_mem_beginFrame speaking foundBefore)
        fun call callMem => (quiet_of_mem_beginFrame callMem).1
    change lastTurn before.channel _ = _
    rw [lastTurn_append, driven]
    rfl
  · -- A capture that waits has its channel halted already, any other is broken off now.
    by_cases full : before.mailbox.phase = .full
    · exact lastRequest_append_of_off (calm.halted motor before foundBefore full).2 noneOn
    · have empty : before.mailbox.isFull = false := by
        simpa [Mailbox.isFull] using full
      have halted := halt_mem_beginFrame speaking foundBefore empty
      exact lastRequest_append_of_halt halted noneOn

/-- Where no capture waits, the frame may end. -/
theorem calm_of_collected (collected : ∀ motor state, link.motor? motor = some state →
    state.mailbox.phase ≠ .full) : Calm .between link trace :=
  ⟨fun motor state found full => absurd full (collected motor state found), nofun, nofun⟩

/-- What keeps all mailboxes finds no capture where none waited. -/
theorem Calm.collected_of_kept (calm : Calm .within link trace)
    (kept : ∀ motor, (next.motor? motor).map MotorState.mailbox =
      (link.motor? motor).map MotorState.mailbox)
    (motor : Nat) (state : MotorState) (found : next.motor? motor = some state) :
    state.mailbox.phase ≠ .full := by
  have same := kept motor
  rw [found, Option.map_some, eq_comm, Option.map_eq_some_iff] at same
  rcases same with ⟨before, foundBefore, mailbox⟩
  rw [← mailbox]
  exact calm.collected rfl motor before foundBefore

/-- A loaded channel still rests, and so do the others. -/
theorem Calm.staged (calm : Calm .within link trace) (motor : Nat) (throttle : UInt16)
    (channel : Channel) (words : List UInt32) :
    Calm .within (link.staged motor throttle channel) (trace ++ [.load channel words]) := by
  have collected := calm.collected_of_kept
    (map_motor?_staged _ (fun _ _ => rfl) link motor throttle channel)
  refine ⟨fun other state found full => absurd full (collected other state found),
    fun _ => collected, ?_⟩
  intro _ other state found
  have channels := map_motor?_staged MotorState.channel (fun _ _ => rfl) link motor throttle
    channel other
  rw [found, Option.map_some, eq_comm, Option.map_eq_some_iff] at channels
  rcases channels with ⟨before, foundBefore, sameChannel⟩
  rw [← sameChannel]
  apply (calm.resting rfl other before foundBefore).append_of_spares
  simp [Call.Spares, Call.turns?, Call.requests?]

theorem mem_received {target : Nat} {capture : Capture} {call : Call}
    (callMem : call ∈ (link.received target state capture).2) :
    call = .halt state.channel ∨ call = .fetch state.channel link.encoding.captureLength := by
  by_cases empty : state.mailbox.phase = .empty
  · simpa [received_of_empty empty] using callMem
  · exact .inl (by simpa [received_of_taken empty] using callMem)

theorem halt_mem_received (link : Link) (target : Nat) (state : MotorState) (capture : Capture) :
    .halt state.channel ∈ (link.received target state capture).2 := by
  by_cases empty : state.mailbox.phase = .empty
  · simp [received_of_empty empty]
  · simp [received_of_taken empty]

/-- A capture is published only after its channel was halted. -/
theorem Calm.received (calm : Calm .between link trace) {target : Nat}
    (found : link.motor? target = some state) (listens : state.direction = .input)
    (capture : Capture) :
    Calm .between (link.transferDone target capture).1
      (trace ++ (link.transferDone target capture).2) := by
  have noneOn (channel : Channel) (call : Call)
      (callMem : call ∈ (link.transferDone target capture).2) :
      call.requests? channel ≠ some true := by
    rw [transferDone_of_input found listens, List.mem_append, List.mem_singleton] at callMem
    rcases callMem with callMem | rfl
    · rcases mem_received callMem with rfl | rfl <;> simp [Call.requests?]
    · simp [Call.requests?]
  refine ⟨?_, nofun, nofun⟩
  intro motor after afterFound full
  rw [motor?_transferDone_of_input found listens] at afterFound
  split at afterFound
  · cases afterFound
    have halted : .halt state.channel ∈ (link.transferDone target capture).2 := by
      rw [transferDone_of_input found listens]
      exact List.mem_append_left _ (halt_mem_received link target state capture)
    exact ⟨listens, lastRequest_append_of_halt halted (noneOn _)⟩
  · rcases calm.halted motor after afterFound full with ⟨stillListens, off⟩
    exact ⟨stillListens, lastRequest_append_of_off off (noneOn _)⟩

/-- A completed frame lets only its own channel ask again, for which no capture waits. -/
theorem Calm.sent (calm : Calm .between link trace) (single : link.burst = false)
    (speaking : link.telemetry = true) (distinct : link.wiring.Distinct)
    {target : Nat} (found : link.motor? target = some state) (drives : state.direction = .output)
    (capture : Capture) :
    Calm .between (link.transferDone target capture).1
      (trace ++ (link.transferDone target capture).2) := by
  refine ⟨?_, nofun, nofun⟩
  intro motor after afterFound full
  rw [motor?_transferDone_of_output found drives, Option.map_eq_some_iff] at afterFound
  rcases afterFound with ⟨before, foundBefore, rfl⟩
  have waits : before.mailbox.phase = .full := by
    split at full <;> exact full
  rcases calm.halted motor before foundBefore waits with ⟨listens, off⟩
  have differ : before.channel ≠ state.channel := by
    intro sameChannel
    obtain rfl : motor = target := distinct motor target state.channel
      (sameChannel ▸ channel?_wiring foundBefore) (channel?_wiring found)
    cases found.symm.trans foundBefore
    rw [drives] at listens
    cases listens
  have unturned : ¬(link.telemetry && link.sharesStop target state motor before &&
      before.direction == .output) = true := by
    simp [listens]
  rw [if_neg unturned]
  refine ⟨listens, lastRequest_append_of_off off ?_⟩
  intro call callMem
  rw [transferDone_of_output found drives, sent_of_speaking speaking, calls_flipWhere,
    List.cons_append, List.mem_cons, List.mem_append, List.mem_singleton] at callMem
  rcases callMem with rfl | callMem | rfl
  · simp [stopCall, single, Call.requests?]
  · rcases mem_flipsOf.mp callMem with ⟨channel, channelMem, rfl | rfl⟩
    · simp [Call.requests?]
    · rcases List.mem_map.mp channelMem with ⟨other, otherMem, rfl⟩
      rcases mem_turned.mp otherMem with ⟨otherMotor, otherFound, shares, _⟩
      obtain rfl : otherMotor = target := by simpa [sharesStop, single] using shares
      cases found.symm.trans otherFound
      simp [Call.requests?, Ne.symm differ]
  · simp [Call.requests?]

/-- Every operation that comes in the order of frames keeps the link calm. -/
theorem Calm.effect (calm : Calm moment link trace) (single : link.burst = false)
    (speaking : link.telemetry = true) (distinct : link.wiring.Distinct)
    (effect : link.Effect op next made) (order : moment.next op = some after) :
    Calm after next (trace ++ made) := by
  cases effect with
  | beginFrame =>
      obtain ⟨rfl, rfl⟩ := Moment.of_next order
      exact calm.beginFrame speaking
  | writeAbsent throttle absent =>
      obtain ⟨rfl, rfl⟩ := Moment.of_next order
      rwa [List.append_nil]
  | write throttle found =>
      obtain ⟨rfl, rfl⟩ := Moment.of_next order
      rw [single]
      exact calm.staged _ throttle _ _
  | endHeld held =>
      obtain ⟨rfl, rfl⟩ := Moment.of_next order
      exact calm_of_collected (calm.collected rfl)
  | endReleased released =>
      obtain ⟨rfl, rfl⟩ := Moment.of_next order
      exact calm_of_collected (calm.collected_of_kept (map_motor?_fire _ (fun _ _ => rfl) _))
  | transferDone target capture =>
      obtain ⟨rfl, rfl⟩ := Moment.of_next order
      cases found : link.motor? target with
      | none =>
          rw [transferDone_of_absent found]
          refine ⟨?_, nofun, nofun⟩
          intro motor state motorFound full
          rcases calm.halted motor state motorFound full with ⟨listens, off⟩
          exact ⟨listens, lastRequest_append_of_off off (by simp [Call.requests?])⟩
      | some state =>
          cases direction : state.direction with
          | input => exact calm.received found direction capture
          | output => exact calm.sent single speaking distinct found direction capture
  | send target command =>
      obtain rfl : moment = after := Moment.of_next order
      rw [List.append_nil]
      exact ⟨calm.halted, calm.collected, calm.resting⟩

end Calm

section Staging

/-- The start of one timer leaves the channels of the others alone. -/
theorem spares_of_startCall? {entry : TimerState} {burst : Bool} {call : Call} {channel : Channel}
    (starts : entry.startCall? burst = some call) (differ : entry.timer ≠ channel.timer) :
    call.Spares channel := by
  have notStarted : call.startsChannel channel = false := by
    simp [startsChannel_of_startCall? starts, differ]
  rw [eq_of_startCall? starts] at notStarted ⊢
  split
  · exact ⟨rfl, rfl⟩
  · next single =>
    rw [if_neg single] at notStarted
    exact ⟨rfl, by rw [Call.requests?, notStarted, if_neg Bool.false_ne_true]⟩

/-- Every timer is started once, so its channels rest until then. -/
theorem stagesAtRest_fire (nodup : link.wiring.timers.Nodup) {inUse : Channel → Prop}
    (resting : ∀ channel, inUse channel → Rests channel trace) :
    StagesAtRest inUse trace link.fire.2 := by
  intro before call after channel split stages
  rcases List.filterMap_eq_append_iff.mp split with ⟨first, rest, timers, firstCalls, restCalls⟩
  rcases List.filterMap_eq_cons_iff.mp restCalls with ⟨idle, entry, later, rfl, _, starts, _⟩
  rcases stages with ⟨words, rfl⟩ | ⟨used, startsChannel⟩
  · cases startedTimer?_of_startCall? starts
  · rw [startsChannel_of_startCall? starts, Bool.and_eq_true, decide_eq_true_eq] at startsChannel
    apply (resting channel used).append_of_spares
    intro earlier earlierMem
    rw [← firstCalls, List.mem_filterMap] at earlierMem
    rcases earlierMem with ⟨other, otherMem, otherStarts⟩
    apply spares_of_startCall? otherStarts
    intro sameTimer
    have apart : (link.timers.map TimerState.timer).Nodup := nodup
    rw [timers, List.map_append] at apart
    apply (List.nodup_append.mp apart).2.2 other.timer (List.mem_map_of_mem otherMem) entry.timer
      (List.mem_map_of_mem (by simp))
    rw [sameTimer, startsChannel.1]

/-- Whatever an operation stages, it stages at rest. -/
theorem stagesAtRest_effect (calm : Calm moment link trace) (single : link.burst = false)
    (nodup : link.wiring.timers.Nodup) (effect : link.Effect op next made)
    (order : moment.next op = some after) :
    StagesAtRest link.wiring.InUse trace made := by
  cases effect with
  | beginFrame => exact stagesAtRest_of_quiet (quiet_beginFrame link)
  | writeAbsent throttle absent => exact stagesAtRest_of_quiet (by simp)
  | @write motor state throttle found =>
      obtain ⟨rfl, rfl⟩ := Moment.of_next order
      intro before call after channel split stages
      rw [single, if_neg Bool.false_ne_true] at split
      have whole : before = [] ∧ call = .load state.channel (link.wordsFor motor throttle) := by
        cases before with
        | nil => exact ⟨rfl, (List.cons.inj split).1.symm⟩
        | cons head before => simp at split
      rcases whole with ⟨rfl, rfl⟩
      rw [List.append_nil]
      rcases stages with ⟨words, same⟩ | ⟨_, starts⟩
      · cases same
        exact calm.resting rfl motor state found
      · cases starts
  | endHeld held => exact stagesAtRest_of_quiet (by simp)
  | endReleased released =>
      obtain ⟨rfl, rfl⟩ := Moment.of_next order
      apply stagesAtRest_fire nodup
      rintro channel ⟨motor, wired⟩
      rcases exists_motor?_of_channel? wired with ⟨state, found, rfl⟩
      exact calm.resting rfl motor state found
  | transferDone target capture => exact stagesAtRest_of_quiet (quiet_transferDone link _ _)
  | send target command => exact stagesAtRest_of_quiet (by simp)

/-- A run in the order of frames keeps the link calm, and stages everything at rest. -/
theorem calm_run {ops : List Op} {calls init : List Call} (single : link.burst = false)
    (speaking : link.telemetry = true) (distinct : link.wiring.Distinct)
    (nodup : link.wiring.timers.Nodup) (calm : Calm .between link init)
    (run : link.run ops = .ok (last, calls)) (order : ops.foldlM Moment.next .between = some after) :
    Calm after last (init ++ calls) ∧ StagesAtRest link.wiring.InUse init calls := by
  refine order_induction (motive := fun moment last calls => Calm moment last (init ++ calls) ∧
    StagesAtRest link.wiring.InUse init calls)
    ⟨by rwa [List.append_nil], stagesAtRest_of_quiet (by simp)⟩ ?_ run order
  rintro moment after mid calls op next made wiring ⟨calmBefore, staged⟩ effect falls
  have midSingle : mid.burst = false := (congrArg Wiring.burst wiring).trans single
  have midSpeaking : mid.telemetry = true := (congrArg Wiring.telemetry wiring).trans speaking
  rw [← wiring] at distinct nodup staged ⊢
  refine ⟨?_, staged.append (stagesAtRest_effect calmBefore midSingle nodup effect falls)⟩
  rw [← List.append_assoc]
  exact calmBefore.effect midSingle midSpeaking distinct effect falls

end Staging

/-- Without bursts and with telemetry, a channel is loaded only while it drives its wire with its
request off, and it rests like this until its timer starts: within a frame every channel does, and
each start still finds its channels at rest. This holds whatever transfers complete between the
frames, in any order and number. -/
theorem requests_off_while_staged {settings : MotorSettings} {timing : Timing}
    {answers : Nat → Except ClaimError Channel} (single : settings.burst = false)
    (speaking : settings.telemetry = true)
    (distinct : ∀ motor other channel, motor < settings.claimCount → other < settings.claimCount →
      answers motor = .ok channel → answers other = .ok channel → motor = other)
    (fits : timing.Fits) :
    ∃ link init, connect settings timing answers = .ok (link, init) ∧
      ∀ ops : List Op, FrameOrder ops → ∃ last calls, link.run ops = .ok (last, calls) ∧
        (∀ before channel words after, init ++ calls = before ++ .load channel words :: after →
          lastTurn channel before = some .output ∧ lastRequest channel before = some false) ∧
        (∀ before call after motor channel, init ++ calls = before ++ call :: after →
          link.wiring.channel? motor = some channel → call.startsChannel channel = true →
            lastTurn channel before = some .output ∧ lastRequest channel before = some false) ∧
        (ops.foldlM Moment.next .between = some .within →
          ∀ motor channel, link.wiring.channel? motor = some channel →
            lastTurn channel (init ++ calls) = some .output ∧
              lastRequest channel (init ++ calls) = some false) := by
  rcases exists_initial fits settings answers with ⟨link, init, connected, initial, initCalls⟩
  refine ⟨link, init, connected, ?_⟩
  intro ops order
  have linkSingle := initial.burst_eq.trans single
  rcases exists_run_of_lanesFit (Wiring.lanesFit_of_single linkSingle) ops with ⟨last, calls, ran⟩
  refine ⟨last, calls, ran, ?_⟩
  rcases Option.isSome_iff_exists.mp order with ⟨after, ordered⟩
  have calm : Calm .between link init := by
    apply calm_of_collected
    intro motor state found
    rw [(initial.answered found).2.2]
    simp [MotorState.onChannel, Mailbox.new]
  rcases calm_run linkSingle (initial.telemetry_eq.trans speaking)
    (fun _ _ _ => initial.distinct distinct) initial.nodup calm ran ordered with ⟨atEnd, staged⟩
  have wholeStaged : StagesAtRest link.wiring.InUse [] (init ++ calls) := by
    refine StagesAtRest.append (stagesAtRest_of_quiet ?_) staged
    intro call callMem
    rw [initCalls] at callMem
    exact ((driven_claimAll settings answers).quiet call callMem).2.2
  refine ⟨?_, ?_, ?_⟩
  · intro before channel words after split
    have rests := wholeStaged before _ after channel split (.inl ⟨words, rfl⟩)
    exact ⟨rests.turn_eq, rests.request_eq⟩
  · intro before call after motor channel split wired starts
    have rests := wholeStaged before call after channel split (.inr ⟨⟨motor, wired⟩, starts⟩)
    exact ⟨rests.turn_eq, rests.request_eq⟩
  · intro endsWithin motor channel wired
    cases ordered.symm.trans endsWithin
    rw [← wiring_run ran] at wired
    rcases exists_motor?_of_channel? wired with ⟨state, found, rfl⟩
    have rests := atEnd.resting rfl motor state found
    exact ⟨rests.turn_eq, rests.request_eq⟩

/-- A motor answers twice and stops once more before it is loaded again. -/
theorem requests_off_while_staged_after_two_replies :
    ∃ link init last calls,
      connect { motorCount := 1 } {} (Bench.inOrder []).answer = .ok (link, init) ∧
      link.run [.beginFrame, .write 0 100, .endFrame, .transferDone 0 .nothing,
        .transferDone 0 (.ofWords [5, 9]), .transferDone 0 (.ofWords [7]), .beginFrame,
        .write 0 200] = .ok (last, calls) ∧
      (∀ before channel words after, init ++ calls = before ++ .load channel words :: after →
        lastTurn channel before = some .output ∧ lastRequest channel before = some false) ∧
      lastTurn ⟨⟨0⟩, 0⟩ (init ++ calls) = some .output ∧
      lastRequest ⟨⟨0⟩, 0⟩ (init ++ calls) = some false := by
  have fits : Timing.Fits {} := by decide
  have distinct := Bench.distinctAnswers_inOrder [] { motorCount := 1 }
  rcases requests_off_while_staged rfl rfl (fun _ _ _ => distinct.distinct) fits with
    ⟨link, init, connected, runs⟩
  rcases runs [.beginFrame, .write 0 100, .endFrame, .transferDone 0 .nothing,
      .transferDone 0 (.ofWords [5, 9]), .transferDone 0 (.ofWords [7]), .beginFrame,
      .write 0 200] (by decide) with ⟨last, calls, ran, loads, _, resting⟩
  have wired : link.wiring.channel? 0 = some ⟨⟨0⟩, 0⟩ := by
    cases connected
    rfl
  exact ⟨link, init, last, calls, connected, ran, loads, resting (by decide) 0 _ wired⟩

end Link

end Rotor

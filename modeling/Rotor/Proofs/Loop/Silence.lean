import Rotor.Loop
import Rotor.Proofs.Link.Naming
import Rotor.Proofs.Link.Staging
import Rotor.Proofs.Notch.Runs

/-!
# A loop without telemetry

With telemetry off, a loop only sends. No operation turns a channel to input, so none has a reply to
wait for, to collect or to count (`Link.Mute`), and the filter has nothing to follow and no bank.
`Loop.silent_loop_is_one_way` says so of everything that may happen to a loop, in any order.
-/

namespace Rotor

/-- Whether a call has to do with receiving: it turns a channel to input, lets it capture, or asks
for its edges. -/
def Call.receives : Call → Bool
  | .listen _ | .arm _ _ | .fetch _ _ => true
  | _ => false

namespace Link

variable {link next : Link} {motor : Nat} {state : MotorState} {op : Op} {made init : List Call}

/-- A link that has never listened: all its motors are at output and have no telemetry, and nothing
was counted. -/
structure Mute (link : Link) : Prop where
  silent : link.telemetry = false
  driving : ∀ {motor state}, link.motor? motor = some state →
    state.direction = .output ∧ state.telemetry = none
  counters : link.counters = .zero

section Steps

/-- What leaves directions and telemetry as they are, and counts nothing, leaves a link mute. -/
theorem Mute.still (mute : link.Mute) (telemetry : next.telemetry = link.telemetry)
    (counters : next.counters = link.counters)
    (motors : ∀ motor, (next.motor? motor).map (fun state => (state.direction, state.telemetry)) =
      (link.motor? motor).map fun state => (state.direction, state.telemetry)) : next.Mute := by
  refine ⟨telemetry.trans mute.silent, ?_, counters.trans mute.counters⟩
  intro motor state found
  have shown := motors motor
  rw [found, Option.map_some, eq_comm, Option.map_eq_some_iff] at shown
  rcases shown with ⟨before, foundBefore, same⟩
  obtain ⟨sameDirection, sameTelemetry⟩ := Prod.mk.inj same
  rw [← sameDirection, ← sameTelemetry]
  exact mute.driving foundBefore

/-- A completed transfer is that of an output. It is stopped, and nothing changes. -/
theorem Mute.transferDone (mute : link.Mute) (motor : Nat) (capture : Capture) :
    (link.transferDone motor capture).1 = link ∧
      ∀ call ∈ (link.transferDone motor capture).2, call.receives = false := by
  cases found : link.motor? motor with
  | none =>
      rw [transferDone_of_absent found]
      exact ⟨rfl, by simp [Call.receives]⟩
  | some state =>
      rw [transferDone_of_output found (mute.driving found).1, sent_of_silent mute.silent]
      refine ⟨rfl, List.forall_mem_append.mpr ⟨?_, by simp [Call.receives]⟩⟩
      rw [List.forall_mem_singleton]
      unfold stopCall
      split <;> rfl

/-- No operation makes a mute link listen. -/
theorem Mute.effect (mute : link.Mute) (effect : link.Effect op next made) :
    next.Mute ∧ ∀ call ∈ made, call.receives = false := by
  cases effect with
  | beginFrame =>
      rw [beginFrame_of_silent mute.silent]
      exact ⟨mute, by simp⟩
  | writeAbsent throttle absent => exact ⟨mute, by simp⟩
  | write throttle found =>
      refine ⟨mute.still rfl rfl ?_, ?_⟩
      · intro motor
        exact map_motor?_staged _ (fun _ _ => rfl) link _ throttle _ motor
      · split <;> simp [Call.receives]
  | endHeld held => exact ⟨mute.still rfl rfl fun _ => rfl, by simp⟩
  | endReleased released =>
      refine ⟨mute.still rfl rfl ?_, ?_⟩
      · intro motor
        exact map_motor?_fire _ (fun _ _ => rfl) { link with commands := _ } motor
      · intro call callMem
        rcases mem_calls_fire.mp callMem with ⟨entry, _, starts⟩
        rw [eq_of_startCall? starts]
        split <;> rfl
  | transferDone motor capture =>
      rcases mute.transferDone motor capture with ⟨same, quiet⟩
      rw [same]
      exact ⟨mute, quiet⟩
  | send target command => exact ⟨mute.still rfl rfl fun _ => rfl, by simp⟩

end Steps

variable {settings : MotorSettings} {timing : Timing} {answers : Nat → Except ClaimError Channel}

theorem mute_of_connect (silent : settings.telemetry = false)
    (connected : connect settings timing answers = .ok (link, init)) :
    link.Mute ∧ ∀ call ∈ init, call.receives = false := by
  have initial := (initial_of_connect connected).1
  refine ⟨⟨initial.telemetry_eq.trans silent, ?_, ?_⟩, ?_⟩
  · intro motor state found
    rw [(initial.answered found).2.2]
    exact ⟨rfl, rfl⟩
  · rcases exists_micros_of_connect connected with ⟨micros, _, _, rfl⟩
    rfl
  · intro call callMem
    by_contra receives
    rw [Bool.not_eq_false] at receives
    -- A call that receives names a channel, and only driving and enabling calls do.
    have named : call.channel?.isSome = true := by
      cases call <;> first | rfl | cases receives
    have announced : call ∈ init.filter fun call => call.channel?.isSome :=
      List.mem_filter.mpr ⟨callMem, named⟩
    rw [announced_of_connect connected, List.mem_flatMap] at announced
    rcases announced with ⟨state, _, driven⟩
    simp only [List.mem_cons, List.not_mem_nil, or_false] at driven
    rcases driven with rfl | rfl <;> cases receives

end Link

namespace Filter

variable {filter : Filter} {settings : FilterSettings} {motors : MotorSettings} {timing : Timing}

theorem banks_of_silent (silent : motors.telemetry = false)
    (built : new settings motors timing = .ok filter) : filter.banks = [] := by
  rcases new_eq_ok_iff.mp built with ⟨_, micros, _, rfl⟩
  simp [ofSettings, moveCursor, banksFor, silent]

/-- A filter without banks passes every sample as it is. -/
theorem apply_of_no_bank (off : filter.banks = []) (signal : Signal) (axis : Nat)
    (value : Float32) : filter.apply signal axis value = (value, filter) := by
  simp [apply, bank?, off]

end Filter

namespace Loop

/-- What happens to a loop. -/
inductive Event
  | link (op : Link.Op)
  | update (telemetry : Nat → Option UInt16)
  | apply (signal : Signal) (axis : Nat) (value : Float32)

/-- The loop after an event, with the calls that are made. -/
def react (loop : Loop) : Event → Except Fault (Loop × List Call)
  | .link op => do
    let (link, calls) ← loop.link.step op
    return ({ loop with link }, calls)
  | .update telemetry => .ok ({ loop with filter := loop.filter.update telemetry }, [])
  | .apply signal axis value =>
    .ok ({ loop with filter := (loop.filter.apply signal axis value).2 }, [])

/-- The loop after a list of events, with all calls that are made. -/
def play (loop : Loop) : List Event → Except Fault (Loop × List Call)
  | [] => .ok (loop, [])
  | event :: rest => do
    let (next, calls) ← loop.react event
    let (last, more) ← play next rest
    return (last, calls ++ more)

/-- What a loop does that only sends: none of its calls receives, the beginning of a frame does
nothing, every motor that `link` has connected is at output and without telemetry, nothing is
counted. -/
structure OneWay (link : Link) (last : Loop) (calls : List Call) : Prop where
  calls : ∀ call ∈ calls, call.receives = false
  beginFrame : last.link.beginFrame = (last.link, [])
  direction : ∀ motor, link.isConnected motor = true → last.link.direction motor = some .output
  telemetryOf : ∀ motor, last.link.telemetryOf motor = none
  counters : last.link.counters = .zero

variable {loop next last : Loop} {event : Event} {events : List Event} {calls made : List Call}

section Play

theorem react_link_eq_ok_iff {op : Link.Op} :
    loop.react (.link op) = .ok (next, made) ↔
      loop.link.step op = .ok (next.link, made) ∧ next.filter = loop.filter := by
  rcases next with ⟨nextLink, filter⟩
  simp only [react]
  cases loop.link.step op with
  | error fault => simp [bind, Except.bind]
  | ok result =>
      rcases result with ⟨link, calls⟩
      constructor
      · intro reacted
        cases reacted
        exact ⟨rfl, rfl⟩
      · rintro ⟨step, same⟩
        cases step
        cases same
        rfl

theorem play_cons_eq_ok_iff {rest : List Event} :
    loop.play (event :: rest) = .ok (last, calls) ↔
      ∃ next made more, loop.react event = .ok (next, made) ∧ next.play rest = .ok (last, more) ∧
        calls = made ++ more := by
  simp only [play]
  cases reacted : loop.react event with
  | error fault => simp [bind, Except.bind]
  | ok result =>
      rcases result with ⟨next, made⟩
      cases later : next.play rest with
      | error fault => simp [bind, Except.bind, later]
      | ok result =>
          rcases result with ⟨last, more⟩
          simp [bind, Except.bind, later, pure, Except.pure, eq_comm]

/-- An event is an operation on the link, or happens to the filter and makes no call. -/
theorem link_of_react (reacted : loop.react event = .ok (next, made)) :
    (∃ op, loop.link.Effect op next.link made) ∨ next.link = loop.link ∧ made = [] := by
  cases event with
  | link op =>
      exact .inl ⟨op, Link.effect_of_step (react_link_eq_ok_iff.mp reacted).1⟩
  | update telemetry =>
      cases reacted
      exact .inr ⟨rfl, rfl⟩
  | apply signal axis value =>
      cases reacted
      exact .inr ⟨rfl, rfl⟩

theorem wiring_react (reacted : loop.react event = .ok (next, made)) :
    next.link.wiring = loop.link.wiring := by
  rcases link_of_react reacted with ⟨op, effect⟩ | ⟨same, _⟩
  · exact Link.wiring_effect effect
  · rw [same]

theorem exists_react (fit : loop.link.wiring.LanesFit) (event : Event) :
    ∃ next made, loop.react event = .ok (next, made) := by
  cases event with
  | link op =>
      rcases Link.exists_step fit op with ⟨link, made, step⟩
      exact ⟨{ loop with link }, made, react_link_eq_ok_iff.mpr ⟨step, rfl⟩⟩
  | update telemetry => exact ⟨_, _, rfl⟩
  | apply signal axis value => exact ⟨_, _, rfl⟩

/-- With lanes that fit, a loop never fails. -/
theorem exists_play (fit : loop.link.wiring.LanesFit) (events : List Event) :
    ∃ last calls, loop.play events = .ok (last, calls) := by
  induction events generalizing loop with
  | nil => exact ⟨loop, [], rfl⟩
  | cons event rest ih =>
      rcases exists_react fit event with ⟨next, made, reacted⟩
      rw [← wiring_react reacted] at fit
      rcases ih fit with ⟨last, more, played⟩
      exact ⟨last, made ++ more, play_cons_eq_ok_iff.mpr ⟨next, made, more, reacted, played, rfl⟩⟩

theorem mute_of_react (mute : loop.link.Mute) (reacted : loop.react event = .ok (next, made)) :
    next.link.Mute ∧ ∀ call ∈ made, call.receives = false := by
  rcases link_of_react reacted with ⟨op, effect⟩ | ⟨same, rfl⟩
  · exact mute.effect effect
  · rw [same]
    exact ⟨mute, by simp⟩

/-- A mute link stays mute, and its wiring stays what it was. -/
theorem mute_of_play (mute : loop.link.Mute) (played : loop.play events = .ok (last, calls)) :
    last.link.Mute ∧ last.link.wiring = loop.link.wiring ∧
      ∀ call ∈ calls, call.receives = false := by
  induction events generalizing loop calls with
  | nil =>
      cases played
      exact ⟨mute, rfl, by simp⟩
  | cons event rest ih =>
      rcases play_cons_eq_ok_iff.mp played with ⟨next, made, more, reacted, later, rfl⟩
      rcases mute_of_react mute reacted with ⟨nextMute, quietNow⟩
      rcases ih nextMute later with ⟨lastMute, wiring, quietLater⟩
      refine ⟨lastMute, wiring.trans (wiring_react reacted), ?_⟩
      exact List.forall_mem_append.mpr ⟨quietNow, quietLater⟩

theorem banks_of_react (off : loop.filter.banks = [])
    (reacted : loop.react event = .ok (next, made)) : next.filter.banks = [] := by
  cases event with
  | link op =>
      rw [(react_link_eq_ok_iff.mp reacted).2]
      exact off
  | update telemetry =>
      cases reacted
      rw [Filter.update_of_idle (.inl off)]
      exact off
  | apply signal axis value =>
      cases reacted
      rw [Filter.apply_of_no_bank off]
      exact off

/-- Nothing that happens to a loop gives its filter a bank. -/
theorem banks_of_play (off : loop.filter.banks = [])
    (played : loop.play events = .ok (last, calls)) : last.filter.banks = [] := by
  induction events generalizing loop calls with
  | nil =>
      cases played
      exact off
  | cons event rest ih =>
      rcases play_cons_eq_ok_iff.mp played with ⟨next, made, more, reacted, later, rfl⟩
      exact ih (banks_of_react off reacted) later

end Play

/-- With telemetry off, a loop only sends, whatever happens to it and in whatever order, with bursts
or without: it never receives, no motor leaves output, and nothing is counted. A filter for the same
motors passes every sample as it is. If every motor has a lane in the burst of its timer, no event
fails. -/
theorem silent_loop_is_one_way {settings : MotorSettings} {timing : Timing}
    (silent : settings.telemetry = false) (fits : timing.Fits)
    (answers : Nat → Except ClaimError Channel) :
    ∃ link init, Link.connect settings timing answers = .ok (link, init) ∧
      ∀ (filter : Filter) (events : List Event),
        ((settings.burst = true → ∀ motor channel, motor < settings.claimCount →
            answers motor = .ok channel → channel.index.toNat < channelsPerTimer) →
          ∃ last calls, play { link, filter } events = .ok (last, calls)) ∧
        ∀ last calls, play { link, filter } events = .ok (last, calls) →
          OneWay link last (init ++ calls) ∧
          ∀ filterSettings, Filter.new filterSettings settings timing = .ok filter →
            ∀ signal axis value, last.filter.apply signal axis value = (value, last.filter) := by
  rcases Link.exists_initial fits settings answers with ⟨link, init, connected, initial, _⟩
  rcases Link.mute_of_connect silent connected with ⟨mute, quietInit⟩
  refine ⟨link, init, connected, ?_⟩
  intro filter events
  refine ⟨?_, ?_⟩
  · intro lanes
    exact exists_play (initial.lanesFit lanes) events
  · intro last calls played
    rcases mute_of_play mute played with ⟨lastMute, wiring, quiet⟩
    refine ⟨⟨?_, Link.beginFrame_of_silent lastMute.silent, ?_, ?_, lastMute.counters⟩, ?_⟩
    · exact List.forall_mem_append.mpr ⟨quietInit, quiet⟩
    · intro motor isConnected
      rcases Option.isSome_iff_exists.mp isConnected with ⟨state, found⟩
      have wired := Link.channel?_wiring found
      rw [← wiring] at wired
      rcases Link.exists_motor?_of_channel? wired with ⟨lastState, lastFound, _⟩
      rw [Link.direction, lastFound, Option.map_some, (lastMute.driving lastFound).1]
    · intro motor
      cases found : last.link.motor? motor with
      | none => simp [Link.telemetryOf, found]
      | some state => simp [Link.telemetryOf, found, (lastMute.driving found).2]
    · intro filterSettings built signal axis value
      apply Filter.apply_of_no_bank
      exact banks_of_play (Filter.banks_of_silent silent built) played

/-- Two motors in burst mode, with completed transfers of both and of a motor that is not there, and
a filter that has heard of speeds. -/
theorem silent_loop_is_one_way_in_bursts :
    let settings : MotorSettings := { motorCount := 2, telemetry := false, burst := true }
    let events : List Event := [.link .beginFrame, .link (.write 0 100), .link (.write 1 200),
      .update fun _ => some 840, .link .endFrame, .link (.transferDone 0 .nothing),
      .link (.transferDone 1 (.ofWords [7])), .link (.transferDone 9 .nothing),
      .apply .gyro 0 0.5, .link (.send .all .beacon1), .link .endFrame]
    ∃ link init filter last calls,
      Link.connect settings {} (Bench.inOrder []).answer = .ok (link, init) ∧
      Filter.new {} settings {} = .ok filter ∧
      play { link, filter } events = .ok (last, calls) ∧
      OneWay link last (init ++ calls) ∧
      last.filter.apply .dterm 1 0.25 = (0.25, last.filter) := by
  intro settings events
  have fits : Timing.Fits {} := by decide
  have built : Filter.new {} settings {} =
      .ok ((Filter.ofSettings {} settings {} 125).moveCursor .start) :=
    Filter.new_eq_ok_iff.mpr ⟨by decide, 125, by decide, rfl⟩
  have silent : settings.telemetry = false := rfl
  rcases silent_loop_is_one_way silent fits (Bench.inOrder []).answer with
    ⟨link, init, connected, plays⟩
  have distinct := Bench.distinctAnswers_inOrder [] settings
  rcases plays _ events with ⟨finishes, behaves⟩
  rcases finishes fun _ _ _ => distinct.index_lt with ⟨last, calls, played⟩
  rcases behaves last calls played with ⟨oneWay, passes⟩
  exact ⟨link, init, _, last, calls, connected, built, played, oneWay,
    passes {} built .dterm 1 0.25⟩

end Loop

end Rotor

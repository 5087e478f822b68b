import Rotor.Proofs.Link.Naming
import Rotor.Proofs.Link.Roster

/-!
# Motors in groups

The motors on one timer are a group. Connecting a link goes through the motors once: a motor is left
without a channel if its claim is refused or if the group of its timer is full by then, and the first
claim that is granted on a timer brings the timer into service, also for the motors after it. The
groups and the places that the motors keep of them are those of the roster, which comes to the same
link (`Link.EnrolledIn`), and it is its groups that share out the motors (`Roster.Shares`).

Which motors have a channel is read off what a single claim adds (`Assignment.claim_error`,
`Assignment.claim_ok`): a motor at the end of the motors, a timer at the end of the timers if it is a
new one, and the calls for both. `Assignment.Shared` is what the first so many claims have come to.
-/

namespace Rotor

namespace Call

/-- Whether a call asks for the channel of a motor. -/
def isClaim : Call → Bool
  | .claim _ _ => true
  | _ => false

/-- Whether a call sets a timer up. -/
def isSetUp : Call → Bool
  | .setUpTimer _ _ => true
  | _ => false

end Call

namespace Link

variable {link : Link} {settings : MotorSettings} {timing : Timing}
  {answers : Nat → Except ClaimError Channel} {init : List Call}

/-- The number of motors before `motor` that have a channel of a timer. -/
def occupantsBefore (motors : List (Option MotorState)) (motor : Nat) (timer : Timer) : Nat :=
  (motors.take motor).countP fun motor => motor.any fun state => state.channel.timer = timer

/-- No channel is driven before its timer was set up. -/
def SetUpFirst (protocol : Protocol) (calls : List Call) : Prop :=
  ∀ (index : Nat) (channel : Channel), calls[index]? = some (.drive channel) →
    .setUpTimer channel.timer protocol ∈ calls.take index

/-- The number of motors before `motor` that have a seat on a timer. -/
def Roster.seatedBefore (roster : Roster) (motor : Nat) (timer : Timer) : Nat :=
  (roster.seats.take motor).countP fun seat? => seat?.any fun seat => seat.channel.timer = timer

/-- The groups of a roster share out the motors among them. -/
structure Roster.Shares (settings : MotorSettings) (answers : Nat → Except ClaimError Channel)
    (roster : Roster) : Prop where
  /-- A motor has a seat on the channel that it was granted, if fewer than four motors before it
  have seats on the timer. -/
  seated_iff : ∀ motor channel, (roster.seat? motor).map Seat.channel = some channel ↔
    motor < settings.claimCount ∧ answers motor = .ok channel ∧
      roster.seatedBefore motor channel.timer < channelsPerTimer
  /-- A motor with a seat is in one group and no other, at the place that it keeps. This is the group
  of the timer of its channel. -/
  one_group : ∀ motor seat, roster.seat? motor = some seat →
    ∃ group, roster.groups[seat.group]? = some group ∧ group.timer = seat.channel.timer ∧
      ∀ (place : Nat) (other : Group), roster.groups[place]? = some other →
        (motor ∈ other.members ↔ place = seat.group)
  /-- A group has no other motors than those with a seat on its timer. -/
  members_seated : ∀ group ∈ roster.groups, ∀ motor ∈ group.members,
    ∃ seat, roster.seat? motor = some seat ∧ seat.channel.timer = group.timer
  nodup : (roster.groups.map Group.timer).Nodup
  few : ∀ group ∈ roster.groups, group.members.length ≤ channelsPerTimer
  increasing : ∀ group ∈ roster.groups, group.members.Pairwise (· < ·)

/-- A link that was connected, with the calls for it, is what its roster comes to. -/
structure EnrolledIn (roster : Roster) (link : Link) (init : List Call) : Prop where
  motors : link.motors = roster.seats.map (Option.map fun seat => .onChannel seat.channel)
  timers : link.timers = roster.groups.map fun group => .ofTimer group.timer
  calls : init = roster.calls
  members : ∀ group ∈ roster.groups, link.members group.timer = group.members

/-- The calls that connect a link. -/
structure Opening (settings : MotorSettings) (answers : Nat → Except ClaimError Channel)
    (link : Link) (init : List Call) : Prop where
  /-- Each motor is claimed for once, in order. -/
  claims : init.filter Call.isClaim =
    (List.range settings.claimCount).map (Call.claim · settings.burst)
  /-- In service are the timers that some claim was granted on. -/
  inService_iff : ∀ timer, timer ∈ link.wiring.timers ↔
    ∃ motor < settings.claimCount, ∃ channel, answers motor = .ok channel ∧ channel.timer = timer
  /-- Each timer in service is set up once. -/
  setUps : init.filter Call.isSetUp =
    link.wiring.timers.map (Call.setUpTimer · settings.protocol)
  setUp_first : SetUpFirst settings.protocol init
  /-- Each motor with a channel is driven and then enabled, and no other call goes to a channel. -/
  channels : init.filter (fun call => call.channel?.isSome) =
    (link.motors.filterMap id).flatMap fun state =>
      [.drive state.channel, .enable state.channel]

namespace Assignment

variable {assignment : Assignment} {count motor : Nat} {timer : Timer} {channel : Channel}

theorem occupantsBefore_length (assignment : Assignment) (timer : Timer) :
    occupantsBefore assignment.motors assignment.motors.length timer =
      assignment.occupancy timer := by
  rw [occupantsBefore, List.take_length]
  rfl

theorem occupantsBefore_concat {motors : List (Option MotorState)} (inRange : motor ≤ motors.length)
    (last : Option MotorState) (timer : Timer) :
    occupantsBefore (motors ++ [last]) motor timer = occupantsBefore motors motor timer := by
  rw [occupantsBefore, List.take_append_of_le_length inRange]
  rfl

section Claim

/-- The motor that a granted claim adds: one with the channel if there is room on its timer. -/
def newcomer (assignment : Assignment) (channel : Channel) : Option MotorState :=
  if assignment.occupancy channel.timer < channelsPerTimer then some (.onChannel channel) else none

/-- The timers that a granted claim brings into service. -/
def newTimers (assignment : Assignment) (timer : Timer) : List Timer :=
  if assignment.knows timer then [] else [timer]

/-- The calls of a claim that is granted. -/
def callsFor (assignment : Assignment) (settings : MotorSettings) (motor : Nat)
    (channel : Channel) : List Call :=
  .claim motor settings.burst ::
    ((assignment.newTimers channel.timer).map (.setUpTimer · settings.protocol) ++
      (assignment.newcomer channel).toList.flatMap fun state =>
        [.drive state.channel, .enable state.channel])

theorem mem_newTimers {other : Timer} : other ∈ assignment.newTimers timer ↔
    other ∉ assignment.timersInService ∧ other = timer := by
  unfold newTimers
  cases known : assignment.knows timer with
  | true =>
      have inService := knows_iff.mp known
      simp only [if_true, List.not_mem_nil, false_iff, not_and]
      rintro unknown rfl
      exact unknown inService
  | false =>
      have unknown : timer ∉ assignment.timersInService := by
        rw [← knows_iff, known]
        exact Bool.false_ne_true
      simp only [Bool.false_eq_true, if_false, List.mem_singleton]
      constructor
      · rintro rfl
        exact ⟨unknown, rfl⟩
      · exact And.right

theorem claim_error (settings : MotorSettings) (motor : Nat) (refusal : ClaimError) :
    assignment.claim settings motor (.error refusal) =
      { motors := assignment.motors ++ [none]
        timers := assignment.timers
        calls := assignment.calls ++ [.claim motor settings.burst] } :=
  rfl

theorem claim_ok (settings : MotorSettings) (motor : Nat) (channel : Channel) :
    assignment.claim settings motor (.ok channel) =
      { motors := assignment.motors ++ [assignment.newcomer channel]
        timers := assignment.timers ++ (assignment.newTimers channel.timer).map .ofTimer
        calls := assignment.calls ++ assignment.callsFor settings motor channel } := by
  have sameOccupancy (calls : List Call) :
      occupancy { assignment with calls } channel.timer = assignment.occupancy channel.timer := rfl
  have sameKnows (calls : List Call) :
      knows { assignment with calls } channel.timer = assignment.knows channel.timer := rfl
  unfold claim
  dsimp only
  unfold attach
  rw [occupancy_introduce, sameOccupancy]
  unfold introduce callsFor newcomer newTimers
  rw [sameKnows]
  cases assignment.knows channel.timer <;> split <;> simp [skip, MotorState.onChannel]

theorem filter_isClaim_callsFor (settings : MotorSettings) (motor : Nat) (channel : Channel) :
    (assignment.callsFor settings motor channel).filter Call.isClaim =
      [.claim motor settings.burst] := by
  unfold callsFor newTimers newcomer
  split <;> split <;> rfl

theorem filter_isSetUp_callsFor (settings : MotorSettings) (motor : Nat) (channel : Channel) :
    (assignment.callsFor settings motor channel).filter Call.isSetUp =
      (assignment.newTimers channel.timer).map (.setUpTimer · settings.protocol) := by
  unfold callsFor newTimers newcomer
  split <;> split <;> rfl

/-- A channel that is driven is on a timer that was in service before or is set up first. -/
theorem knows_of_drive {settings : MotorSettings} {index : Nat} {driven : Channel}
    (isDrive : (assignment.callsFor settings motor channel)[index]? = some (.drive driven)) :
    assignment.knows driven.timer = true ∨ .setUpTimer driven.timer settings.protocol ∈
      (assignment.callsFor settings motor channel).take index := by
  have isChannel : driven = channel := by
    have driveMem := List.mem_of_getElem? isDrive
    unfold callsFor newTimers newcomer at driveMem
    split at driveMem <;> split at driveMem <;> simp_all [MotorState.onChannel]
  subst isChannel
  cases known : assignment.knows driven.timer with
  | true => exact .inl rfl
  | false =>
      right
      rcases index with _ | _ | index
      · simp [callsFor] at isDrive
      · simp [callsFor, newTimers, known] at isDrive
      · simp [callsFor, newTimers, known]

end Claim

/-- What the claims of the first `count` motors have come to. -/
structure Shared (settings : MotorSettings) (answers : Nat → Except ClaimError Channel)
    (count : Nat) (assignment : Assignment) : Prop where
  length_eq : assignment.motors.length = count
  wired_iff : ∀ motor channel,
    (assignment.motors[motor]?.join).map MotorState.channel = some channel ↔
      motor < count ∧ answers motor = .ok channel ∧
        occupantsBefore assignment.motors motor channel.timer < channelsPerTimer
  inService_iff : ∀ timer, timer ∈ assignment.timersInService ↔
    ∃ motor < count, ∃ channel, answers motor = .ok channel ∧ channel.timer = timer
  claims : assignment.calls.filter Call.isClaim =
    (List.range count).map (Call.claim · settings.burst)
  setUps : assignment.calls.filter Call.isSetUp =
    assignment.timersInService.map (Call.setUpTimer · settings.protocol)
  setUp_first : SetUpFirst settings.protocol assignment.calls

section Shared

theorem shared_nil : Shared settings answers 0 { motors := [], timers := [], calls := [] } := by
  refine ⟨rfl, by simp, by simp [timersInService], rfl, rfl, ?_⟩
  intro index channel driven
  simp at driven

/-- Another motor has a channel under the same condition as those before it. -/
theorem wired_iff_concat {motors : List (Option MotorState)} {last : Option MotorState}
    (length_eq : motors.length = count)
    (before : ∀ motor channel, (motors[motor]?.join).map MotorState.channel = some channel ↔
      motor < count ∧ answers motor = .ok channel ∧
        occupantsBefore motors motor channel.timer < channelsPerTimer)
    (here : ∀ channel, last.map MotorState.channel = some channel ↔
      answers count = .ok channel ∧
        occupantsBefore motors motors.length channel.timer < channelsPerTimer)
    (motor : Nat) (channel : Channel) :
    ((motors ++ [last])[motor]?.join).map MotorState.channel = some channel ↔
      motor < count + 1 ∧ answers motor = .ok channel ∧
        occupantsBefore (motors ++ [last]) motor channel.timer < channelsPerTimer := by
  subst length_eq
  rcases Nat.lt_trichotomy motor motors.length with earlier | rfl | beyond
  · rw [occupantsBefore_concat (Nat.le_of_lt earlier), List.getElem?_append_left earlier, before]
    simp [earlier, Nat.lt_succ_of_lt earlier]
  · rw [occupantsBefore_concat (Nat.le_refl _), List.getElem?_concat_length]
    simpa using here channel
  · simp [Nat.not_lt.mpr (Nat.succ_le_of_lt beyond)]

theorem setUpFirst_append {protocol : Protocol} {calls more : List Call}
    (before : SetUpFirst protocol calls)
    (after : ∀ (index : Nat) (channel : Channel), more[index]? = some (.drive channel) →
      .setUpTimer channel.timer protocol ∈ calls ∨
        .setUpTimer channel.timer protocol ∈ more.take index) :
    SetUpFirst protocol (calls ++ more) := by
  intro index channel driven
  rcases Nat.lt_or_ge index calls.length with earlier | later
  · rw [List.getElem?_append_left earlier] at driven
    rw [List.take_append_of_le_length (Nat.le_of_lt earlier)]
    exact before index channel driven
  · rw [List.getElem?_append_right later] at driven
    rw [List.take_append, List.take_of_length_le later, List.mem_append]
    exact after _ channel driven

theorem mem_calls_of_knows (shared : Shared settings answers count assignment)
    (known : assignment.knows timer = true) :
    .setUpTimer timer settings.protocol ∈ assignment.calls := by
  have setUp : Call.setUpTimer timer settings.protocol ∈ assignment.calls.filter Call.isSetUp := by
    rw [shared.setUps]
    exact List.mem_map_of_mem (knows_iff.mp known)
  exact (List.mem_filter.mp setUp).1

theorem shared_claim_error (shared : Shared settings answers count assignment)
    {refusal : ClaimError} (refused : answers count = .error refusal) :
    Shared settings answers (count + 1) (assignment.claim settings count (.error refusal)) := by
  rw [claim_error]
  refine ⟨by simp [shared.length_eq], ?_, ?_, ?_, ?_, ?_⟩
  · exact wired_iff_concat shared.length_eq shared.wired_iff (by simp [refused])
  · intro timer
    rw [Nat.exists_lt_succ_right]
    change timer ∈ assignment.timersInService ↔ _
    simpa [refused] using shared.inService_iff timer
  · rw [List.filter_append, shared.claims, List.range_succ, List.map_append]
    rfl
  · rw [List.filter_append, shared.setUps]
    exact List.append_nil _
  · apply setUpFirst_append shared.setUp_first
    intro index channel driven
    cases index <;> simp at driven

theorem shared_claim_ok (shared : Shared settings answers count assignment)
    (granted : answers count = .ok channel) :
    Shared settings answers (count + 1) (assignment.claim settings count (.ok channel)) := by
  have inService : timersInService (assignment.claim settings count (.ok channel)) =
      assignment.timersInService ++ assignment.newTimers channel.timer := by
    simp [claim_ok, timersInService, TimerState.ofTimer, Function.comp_def]
  refine ⟨by simp [claim_ok, shared.length_eq], ?_, ?_, ?_, ?_, ?_⟩
  · rw [claim_ok]
    refine wired_iff_concat shared.length_eq shared.wired_iff fun other => ?_
    rw [occupantsBefore_length, granted, newcomer]
    constructor
    · intro isOther
      split at isOther
      · next room =>
        cases isOther
        exact ⟨rfl, room⟩
      · cases isOther
    · rintro ⟨isOther, room⟩
      cases isOther
      rw [if_pos room]
      rfl
  · intro timer
    rw [inService, List.mem_append, mem_newTimers, Nat.exists_lt_succ_right,
      ← shared.inService_iff]
    simp only [granted, Except.ok.injEq, exists_eq_left']
    by_cases known : timer ∈ assignment.timersInService
    · simp [known]
    · simp [known, eq_comm]
  · rw [claim_ok, List.filter_append, shared.claims, filter_isClaim_callsFor, List.range_succ,
      List.map_append]
    rfl
  · rw [inService, claim_ok, List.filter_append, shared.setUps, filter_isSetUp_callsFor,
      List.map_append]
  · rw [claim_ok]
    apply setUpFirst_append shared.setUp_first
    intro index driven isDrive
    rcases knows_of_drive isDrive with known | setUp
    · exact .inl (mem_calls_of_knows shared known)
    · exact .inr setUp

theorem shared_claimAll (settings : MotorSettings) (answers : Nat → Except ClaimError Channel) :
    Shared settings answers settings.claimCount (claimAll settings answers) := by
  refine claimAll_induction shared_nil ?_
  intro count assignment shared
  cases answer : answers count with
  | error refusal => exact shared_claim_error shared answer
  | ok channel => exact shared_claim_ok shared answer

end Shared

end Assignment

section Groups

theorem seatedBefore_eq (roster : Roster) (motor : Nat) (timer : Timer) :
    roster.seatedBefore motor timer =
      occupantsBefore roster.assignment.motors motor timer := by
  rw [occupantsBefore, Roster.assignment, ← List.map_take, Roster.countP_map_onChannel]
  rfl

theorem shares_enroll (settings : MotorSettings) (answers : Nat → Except ClaimError Channel) :
    (enroll settings answers).Shares settings answers := by
  have shared := Assignment.shared_claimAll settings answers
  have occupancy := Assignment.occupancy_claimAll_le settings answers
  rcases Roster.enrolled_enroll settings answers with ⟨sound, _, _, same⟩
  rw [← same] at shared occupancy
  refine ⟨?_, ?_, ?_, sound.nodup, ?_, ?_⟩
  · intro motor channel
    rw [← Roster.channel?_assignment, seatedBefore_eq]
    exact shared.wired_iff motor channel
  · intro motor seat seated
    rcases Roster.exists_group_of_timer (sound.seated seated) with ⟨group, found, onTimer⟩
    exact ⟨group, found, onTimer, fun place other => sound.mem_members_iff seated⟩
  · intro group groupMem motor isMember
    rcases List.getElem?_of_mem groupMem with ⟨place, found⟩
    rw [sound.members found] at isMember
    exact Roster.mem_seatedOn.mp isMember
  · intro group groupMem
    rcases List.getElem?_of_mem groupMem with ⟨place, found⟩
    rw [sound.members found, ← Roster.occupancy_assignment]
    exact occupancy group.timer
  · intro group groupMem
    rcases List.getElem?_of_mem groupMem with ⟨place, found⟩
    rw [sound.members found]
    exact List.Pairwise.filter _ List.pairwise_lt_range

theorem enrolledIn_of_connect (connected : connect settings timing answers = .ok (link, init)) :
    link.EnrolledIn (enroll settings answers) init := by
  have follows := follows_of_connect connected
  rcases exists_micros_of_connect connected with ⟨micros, _, isInit, isLink⟩
  rcases Roster.enrolled_enroll settings answers with ⟨sound, _, _, same⟩
  refine ⟨?_, ?_, ?_, ?_⟩
  · rw [isLink, ← same]
    rfl
  · rw [isLink, ← same]
    exact List.map_map
  · rw [isInit, ← same]
    rfl
  · intro group groupMem
    rcases List.getElem?_of_mem groupMem with ⟨place, found⟩
    rw [follows.members_eq, sound.members found]

theorem opening_of_connect (connected : connect settings timing answers = .ok (link, init)) :
    link.Opening settings answers init := by
  rcases exists_micros_of_connect connected with ⟨micros, _, isInit, isLink⟩
  have shared := Assignment.shared_claimAll settings answers
  have timers : link.wiring.timers = (claimAll settings answers).timersInService := by
    rw [isLink]
    rfl
  have channels := announced_of_connect connected
  subst isInit
  refine ⟨shared.claims, ?_, ?_, shared.setUp_first, channels⟩
  · intro timer
    rw [timers]
    exact shared.inService_iff timer
  · rw [timers]
    exact shared.setUps

/-- Whatever the hardware answers, a link is what its roster comes to, and the groups of the roster
share out the motors: a motor has a channel if its claim was granted and the group of its timer had
fewer than four motors by then, and it is in this group alone. Each motor is claimed for once, each
timer is set up once and before any of its channels is driven, and each channel is driven and then
enabled. All operations on the link go by these groups. -/
theorem timers_share_out_motors (fits : timing.Fits) (settings : MotorSettings)
    (answers : Nat → Except ClaimError Channel) :
    ∃ link init, connect settings timing answers = .ok (link, init) ∧
      link.EnrolledIn (enroll settings answers) init ∧
      (enroll settings answers).Shares settings answers ∧
      link.Opening settings answers init ∧
      ∀ ops last calls, link.run ops = .ok (last, calls) →
        last.LooksUpBy (enroll settings answers) := by
  rcases exists_initial fits settings answers with ⟨link, init, connected, _⟩
  refine ⟨link, init, connected, enrolledIn_of_connect connected, shares_enroll settings answers,
    opening_of_connect connected, ?_⟩
  intro ops last calls ran
  exact looksUpBy_run connected ran

/-- Two hundred motors, of which eight are claimed for. The second is refused, and of the six that are
answered with a channel of timer 7 the last two find its group full. Then a frame is sent. -/
theorem timers_share_out_motors_of_full_timer :
    let settings : MotorSettings := { motorCount := 200 }
    let answers : Nat → Except ClaimError Channel := fun motor =>
      if motor = 1 then .error .noDma
      else .ok { timer := if motor = 6 then ⟨3⟩ else ⟨7⟩, index := 9 }
    ∃ link init last calls, connect settings {} answers = .ok (link, init) ∧ Timing.Fits {} ∧
      link.EnrolledIn (enroll settings answers) init ∧
      (enroll settings answers).Shares settings answers ∧ link.Opening settings answers init ∧
      link.run [.write 2 100, .endFrame] = .ok (last, calls) ∧
      last.LooksUpBy (enroll settings answers) ∧
      (enroll settings answers).groups =
        [{ timer := ⟨7⟩, members := [0, 2, 3, 4] }, { timer := ⟨3⟩, members := [6] }] ∧
      (enroll settings answers).seats.map (Option.map Seat.group) =
        [some 0, none, some 0, some 0, some 0, none, some 1, none] ∧
      link.wiring.timers = [⟨7⟩, ⟨3⟩] ∧ link.members ⟨7⟩ = [0, 2, 3, 4] ∧
      link.members ⟨3⟩ = [6] := by
  intro settings answers
  have fits : Timing.Fits {} := by decide
  rcases timers_share_out_motors fits settings answers with
    ⟨link, init, connected, enrolled, shares, opening, lookups⟩
  have groups : (enroll settings answers).groups =
      [{ timer := ⟨7⟩, members := [0, 2, 3, 4] }, { timer := ⟨3⟩, members := [6] }] := by
    decide
  have places : (enroll settings answers).seats.map (Option.map Seat.group) =
      [some 0, none, some 0, some 0, some 0, none, some 1, none] := by
    decide
  have outcome : link.wiring.timers = [⟨7⟩, ⟨3⟩] ∧ link.members ⟨7⟩ = [0, 2, 3, 4] ∧
      link.members ⟨3⟩ = [6] := by
    cases connected
    decide
  have single : link.wiring.burst = false := by
    cases connected
    rfl
  rcases exists_run_of_lanesFit (Wiring.lanesFit_of_single single) [.write 2 100, .endFrame] with
    ⟨last, calls, ran⟩
  exact ⟨link, init, last, calls, connected, fits, enrolled, shares, opening, ran,
    lookups _ last calls ran, groups, places, outcome⟩

end Groups

end Link

end Rotor

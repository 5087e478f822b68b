import Rotor.Link.Roster
import Rotor.Proofs.Link.Tables

/-!
# The roster of a link

A claim that goes through the lists of a roster comes to the same motors, timers and calls as one
that counts channels (`Roster.enrolled_claim`). What carries this is `Roster.Sound`: the members that
were added to a group one by one are the motors that have a seat on its timer, so a group is full
when the channels of its timer are given out.

No operation touches what a link is connected to, so a link keeps to its roster (`Link.Follows`), and
what its operations look up by timers is what the roster has by places and members
(`Link.LooksUpBy`).
-/

namespace Rotor.Link

variable {settings : MotorSettings} {answers : Nat → Except ClaimError Channel} {motor : Nat}
  {timer : Timer} {channel : Channel}

namespace Roster

variable {roster : Roster} {seats : List (Option Seat)} {group : Group} {place : Nat} {seat : Seat}

/-- The seat of a motor, none for a motor without a channel. -/
def seat? (roster : Roster) (motor : Nat) : Option Seat :=
  (roster.seats[motor]?).join

/-- The timers of the groups. -/
def timers (roster : Roster) : List Timer :=
  roster.groups.map Group.timer

/-- The motors that have a seat on a timer, in increasing order. -/
def seatedOn (seats : List (Option Seat)) (timer : Timer) : List Nat :=
  (List.range seats.length).filter fun motor =>
    ((seats[motor]?).join).any fun seat => seat.channel.timer = timer

/-- The motors, timers and calls of a roster. -/
def assignment (roster : Roster) : Assignment where
  motors := roster.seats.map (Option.map fun seat => .onChannel seat.channel)
  timers := roster.timers.map .ofTimer
  calls := roster.calls

/-- The groups are those of different timers, every seat is in the group of its timer, and the
members of a group are the motors that have a seat on its timer. -/
structure Sound (roster : Roster) : Prop where
  nodup : roster.timers.Nodup
  seated : ∀ {motor seat}, roster.seat? motor = some seat →
    roster.timers[seat.group]? = some seat.channel.timer
  members : ∀ {place : Nat} {group : Group}, roster.groups[place]? = some group →
    group.members = seatedOn roster.seats group.timer

section SeatedOn

theorem mem_seatedOn : motor ∈ seatedOn seats timer ↔
    ∃ seat, (seats[motor]?).join = some seat ∧ seat.channel.timer = timer :=
  mem_places.trans (by simp only [decide_eq_true_eq])

theorem seatedOn_concat (seats : List (Option Seat)) (last : Option Seat) (timer : Timer) :
    seatedOn (seats ++ [last]) timer = seatedOn seats timer ++
      if last.any (fun seat => seat.channel.timer = timer) then [seats.length] else [] := by
  unfold seatedOn
  rw [List.length_append, List.length_singleton, List.range_succ, List.filter_append]
  congr 1
  · apply List.filter_congr
    intro motor earlier
    rw [List.getElem?_append_left (List.mem_range.mp earlier)]
  · rw [List.filter_singleton, List.getElem?_concat_length, Bool.cond_eq_ite]
    rfl

theorem length_seatedOn (seats : List (Option Seat)) (timer : Timer) :
    (seatedOn seats timer).length =
      seats.countP fun seat? => seat?.any fun seat => seat.channel.timer = timer :=
  length_places seats fun seat => seat.channel.timer = timer

theorem join_getElem?_concat {last : Option Seat} :
    ((seats ++ [last])[motor]?).join = some seat ↔
      (seats[motor]?).join = some seat ∨ motor = seats.length ∧ last = some seat := by
  rcases Nat.lt_trichotomy motor seats.length with earlier | rfl | beyond
  · simp [List.getElem?_append_left earlier, Nat.ne_of_lt earlier]
  · simp
  · have after : (seats ++ [last]).length ≤ motor := by simpa using Nat.succ_le_of_lt beyond
    simp [List.getElem?_eq_none after, List.getElem?_eq_none (Nat.le_of_lt beyond),
      Nat.ne_of_gt beyond]

/-- As many motors have a channel of a timer as have a seat on it. -/
theorem countP_map_onChannel (seats : List (Option Seat)) (timer : Timer) :
    (seats.map (Option.map fun seat => MotorState.onChannel seat.channel)).countP
        (fun motor => motor.any fun state => state.channel.timer = timer) =
      seats.countP fun seat? => seat?.any fun seat => seat.channel.timer = timer := by
  rw [List.countP_map]
  apply List.countP_congr
  intro seat? _
  simp [Option.any_map, MotorState.onChannel]

theorem occupancy_assignment (roster : Roster) (timer : Timer) :
    roster.assignment.occupancy timer = (seatedOn roster.seats timer).length := by
  rw [length_seatedOn]
  exact countP_map_onChannel roster.seats timer

theorem channel?_assignment (roster : Roster) (motor : Nat) :
    (roster.assignment.motors[motor]?.join).map MotorState.channel =
      (roster.seat? motor).map Seat.channel := by
  rw [assignment, seat?, List.getElem?_map]
  rcases roster.seats[motor]? with _ | _ | seat <;> rfl

theorem timersInService_assignment (roster : Roster) :
    roster.assignment.timersInService = roster.timers := by
  simp [Assignment.timersInService, assignment, TimerState.ofTimer, Function.comp_def]

theorem knows_assignment : roster.assignment.knows timer = true ↔ timer ∈ roster.timers := by
  rw [Assignment.knows_iff, timersInService_assignment]

end SeatedOn

theorem getElem?_timers (found : roster.groups[place]? = some group) :
    roster.timers[place]? = some group.timer := by
  simp [timers, found]

theorem exists_group_of_timer (atPlace : roster.timers[place]? = some timer) :
    ∃ group, roster.groups[place]? = some group ∧ group.timer = timer := by
  simpa [timers] using atPlace

/-- Other members of a group leave the timers as they are. -/
theorem timers_set (found : roster.groups[place]? = some group) (seats : List (Option Seat))
    (members : List Nat) (calls : List Call) :
    timers { seats, groups := roster.groups.set place { group with members }, calls } =
      roster.timers := by
  rcases List.getElem?_eq_some_iff.mp (getElem?_timers found) with ⟨inTable, isTimer⟩
  rw [timers, List.map_set, ← isTimer]
  exact List.set_getElem_self inTable

theorem Sound.place_eq {other : Nat} (sound : roster.Sound)
    (atPlace : roster.timers[place]? = some timer) (atOther : roster.timers[other]? = some timer) :
    place = other := by
  rw [List.getElem?_eq_some_iff] at atPlace atOther
  rcases atPlace with ⟨placeLt, isPlace⟩
  rcases atOther with ⟨otherLt, isOther⟩
  exact sound.nodup.getElem_inj_iff.mp (isPlace.trans isOther.symm)

/-- A motor is a member of the group that its seat names, and of no other. -/
theorem Sound.mem_members_iff (sound : roster.Sound) (seated : roster.seat? motor = some seat)
    (found : roster.groups[place]? = some group) : motor ∈ group.members ↔ place = seat.group := by
  rw [sound.members found, mem_seatedOn]
  constructor
  · rintro ⟨same, sameSeated, onTimer⟩
    cases seated.symm.trans sameSeated
    exact sound.place_eq (getElem?_timers found) (onTimer ▸ sound.seated seated)
  · rintro rfl
    have onTimer := (getElem?_timers found).symm.trans (sound.seated seated)
    exact ⟨seat, seated, (Option.some.inj onTimer).symm⟩

theorem sound_empty : empty.Sound :=
  ⟨List.nodup_nil, by simp [seat?, empty], by simp [empty]⟩

section Claim

theorem sound_skip (sound : roster.Sound) : roster.skip.Sound := by
  refine ⟨sound.nodup, ?_, ?_⟩
  · intro motor seat found
    rcases join_getElem?_concat.mp found with before | ⟨_, none⟩
    · exact sound.seated before
    · cases none
  · intro place group found
    rw [skip, seatedOn_concat, sound.members found]
    simp

/-- A timer that is not in the table gets a group without motors. -/
theorem sound_push (sound : roster.Sound) (unknown : timer ∉ roster.timers) (calls : List Call) :
    Sound { roster with groups := roster.groups ++ [{ timer, members := [] }], calls } := by
  have timers (calls : List Call) :
      timers { roster with groups := roster.groups ++ [{ timer, members := [] }], calls } =
        roster.timers ++ [timer] := by
    simp [timers]
  refine ⟨?_, ?_, ?_⟩
  · rw [timers, List.nodup_append]
    refine ⟨sound.nodup, List.nodup_singleton _, ?_⟩
    rintro known knownMem other otherMem rfl
    exact unknown (List.mem_singleton.mp otherMem ▸ knownMem)
  · intro motor seat found
    have known := sound.seated found
    rw [timers, List.getElem?_append_left (List.getElem?_eq_some_iff.mp known).1]
    exact known
  · intro place group found
    rcases Nat.lt_trichotomy place roster.groups.length with earlier | rfl | beyond
    · rw [List.getElem?_append_left earlier] at found
      exact sound.members found
    · -- a motor with a seat on the timer would have brought its group into the table before
      rw [List.getElem?_concat_length] at found
      cases found
      symm
      apply List.eq_nil_iff_forall_not_mem.mpr
      intro motor isSeated
      rcases mem_seatedOn.mp isSeated with ⟨seat, found, rfl⟩
      exact unknown (List.mem_of_getElem? (sound.seated found))
    · rw [List.getElem?_eq_none (by simpa using Nat.succ_le_of_lt beyond)] at found
      cases found

/-- Entering answers with the place of the group of the timer, which is in the table from then on. -/
theorem enter_spec (sound : roster.Sound) (room : roster.groups.length < maxMotors)
    (protocol : Protocol) (timer : Timer) :
    ∃ place next, roster.enter protocol timer = (some place, next) ∧ next.Sound ∧
      next.timers[place]? = some timer ∧ next.seats = roster.seats ∧
      next.groups.length ≤ roster.groups.length + 1 ∧
      next.assignment = roster.assignment.introduce protocol timer := by
  unfold enter
  cases found : roster.groups.findIdx? fun group => group.timer = timer with
  | some place =>
      rcases List.findIdx?_eq_some_iff_getElem.mp found with ⟨inTable, onTimer, _⟩
      have atPlace : roster.timers[place]? = some timer := by
        simpa [timers, inTable] using onTimer
      have known := knows_assignment.mpr (List.mem_of_getElem? atPlace)
      refine ⟨place, roster, rfl, sound, atPlace, rfl, Nat.le_succ _, ?_⟩
      rw [Assignment.introduce, if_pos known]
  | none =>
      have unknown : timer ∉ roster.timers := by
        simpa [timers] using List.findIdx?_eq_none_iff.mp found
      refine ⟨roster.groups.length,
        { roster with
          groups := roster.groups ++ [{ timer, members := [] }]
          calls := roster.calls ++ [.setUpTimer timer protocol] },
        ?_, sound_push sound unknown _, ?_, rfl, ?_, ?_⟩
      · simp [push?, room]
      · simp [timers]
      · simp
      · rw [Assignment.introduce, if_neg (knows_assignment.not.mpr unknown)]
        simp [assignment, timers]

/-- The next motor takes a seat in the group of its timer. -/
theorem sound_seat (sound : roster.Sound) (found : roster.groups[place]? = some group)
    (onTimer : group.timer = channel.timer) (calls : List Call) :
    Sound
      { seats := roster.seats ++ [some { channel, group := place }]
        groups := roster.groups.set place
          { group with members := group.members ++ [roster.seats.length] }
        calls } := by
  refine ⟨?_, ?_, ?_⟩
  · rw [timers_set found]
    exact sound.nodup
  · intro motor seat seated
    rw [timers_set found]
    rcases join_getElem?_concat.mp seated with before | ⟨_, isSeat⟩
    · exact sound.seated before
    · cases isSeat
      exact onTimer ▸ getElem?_timers found
  · intro other otherGroup otherFound
    rw [List.getElem?_set] at otherFound
    split at otherFound
    · next same =>
      simp only [Option.some.injEq, (List.getElem?_eq_some_iff.mp found).1, if_true] at otherFound
      subst otherFound
      rw [seatedOn_concat, ← sound.members found]
      simp [onTimer]
    · next apart =>
      -- any other group is that of another timer, on which nobody sits down here
      have otherTimer : otherGroup.timer ≠ channel.timer := by
        intro same
        exact apart (sound.place_eq (getElem?_timers found)
          (onTimer.trans same.symm ▸ getElem?_timers otherFound))
      rw [seatedOn_concat, sound.members otherFound]
      simp [otherTimer.symm]

/-- A group is full just when the channels of its timer are given out, so to sit down is to be given a
channel. -/
theorem sit_spec (sound : roster.Sound) (atPlace : roster.timers[place]? = some channel.timer) :
    (roster.sit roster.seats.length channel place).Sound ∧
      (roster.sit roster.seats.length channel place).seats.length = roster.seats.length + 1 ∧
      (roster.sit roster.seats.length channel place).groups.length = roster.groups.length ∧
      (roster.sit roster.seats.length channel place).assignment =
        roster.assignment.attach channel := by
  rcases exists_group_of_timer atPlace with ⟨group, found, onTimer⟩
  have occupancy : roster.assignment.occupancy channel.timer = group.members.length := by
    rw [occupancy_assignment, sound.members found, onTimer]
  simp only [sit, found, Option.bind_some, Group.push?, Assignment.attach, occupancy]
  by_cases room : group.members.length < channelsPerTimer
  · simp only [room, if_true]
    refine ⟨sound_seat sound found onTimer _, by simp, by simp, ?_⟩
    rw [assignment, timers_set found]
    simp [assignment]
  · simp only [room, if_false]
    refine ⟨sound_skip sound, by simp [skip], rfl, ?_⟩
    simp [assignment, timers, skip, Assignment.skip]

/-- A roster after the claims of the first `count` motors, beside the assignment after them. -/
structure Enrolled (count : Nat) (assignment : Assignment) (roster : Roster) : Prop where
  sound : roster.Sound
  length_eq : roster.seats.length = count
  few_groups : roster.groups.length ≤ count
  assignment_eq : roster.assignment = assignment

/-- A claim keeps a roster beside the assignment. It never finds the table of groups full, since there
are no more groups than motors that were claimed for before. -/
theorem enrolled_claim {count : Nat} {assignment : Assignment} (inRange : count < maxMotors)
    (enrolled : Enrolled count assignment roster) (settings : MotorSettings)
    (answer : Except ClaimError Channel) :
    Enrolled (count + 1) (assignment.claim settings count answer)
      (roster.claim settings count answer) := by
  rcases enrolled with ⟨sound, rfl, few, rfl⟩
  have claimed (calls : List Call) : Sound { roster with calls } :=
    ⟨sound.nodup, sound.seated, sound.members⟩
  cases answer with
  | error refusal =>
      refine ⟨sound_skip (claimed _), by simp [claim, skip], Nat.le_succ_of_le few, ?_⟩
      simp [claim, skip, assignment, timers, Assignment.claim, Assignment.skip]
  | ok channel =>
      have room := Nat.lt_of_le_of_lt few inRange
      rcases enter_spec (claimed (roster.calls ++ [.claim roster.seats.length settings.burst])) room
        settings.protocol channel.timer with
        ⟨place, next, entered, nextSound, atPlace, seats, nextFew, nextAssignment⟩
      have seated := sit_spec nextSound atPlace
      rw [seats] at seated
      rcases seated with ⟨seatedSound, seatedLength, seatedGroups, seatedAssignment⟩
      simp only [claim, entered]
      refine ⟨seatedSound, seatedLength, ?_, ?_⟩
      · rw [seatedGroups]
        exact nextFew.trans (Nat.succ_le_succ few)
      · rw [seatedAssignment, nextAssignment]
        rfl

theorem enrolled_enroll (settings : MotorSettings) (answers : Nat → Except ClaimError Channel) :
    Enrolled settings.claimCount (claimAll settings answers) (enroll settings answers) := by
  have inRange : settings.claimCount ≤ maxMotors := Nat.min_le_right _ _
  unfold claimAll enroll
  unfold MotorSettings.claimCount at inRange ⊢
  generalize min settings.motorCount.toNat maxMotors = count at inRange
  induction count with
  | zero => exact ⟨sound_empty, rfl, Nat.le_refl 0, rfl⟩
  | succ count ih =>
      rw [List.range_succ, List.foldl_append, List.foldl_append]
      exact enrolled_claim inRange (ih (Nat.le_of_succ_le inRange)) settings (answers count)

end Claim

end Roster

section Follows

variable {roster : Roster} {link last : Link} {group : Group} {place : Nat} {seat : Seat}

/-- The motors of a link have the channels of a roster, and its timers are in the order of the
groups. -/
structure Follows (link : Link) (roster : Roster) : Prop where
  motorCount_eq : link.wiring.motorCount = roster.seats.length
  channel?_eq : ∀ motor, link.wiring.channel? motor = (roster.seat? motor).map Seat.channel
  timers_eq : link.wiring.timers = roster.timers

/-- The operations of a link find by timers what a roster has by places and members. -/
structure LooksUpBy (roster : Roster) (link : Link) : Prop where
  /-- A write goes to the record at the place of the group of the motor. -/
  written : ∀ motor seat, roster.seat? motor = some seat → ∀ update,
    link.updateTimer seat.channel.timer update =
      { link with timers := link.timers.modify seat.group update }
  /-- After a burst the members of the group are turned. -/
  turned : ∀ motor seat group, roster.seat? motor = some seat →
    roster.groups[seat.group]? = some group →
      link.flipWhere (fun _ other => other.channel.timer = seat.channel.timer) =
        link.flipWhere fun other _ => other ∈ group.members
  /-- At the end of a frame the members of a group go by the record at its place. -/
  started : ∀ motor state, link.motor? motor = some state →
    (link.isDue state.channel = true ↔
      ∃ (place : Nat) (group : Group) (entry : TimerState), roster.groups[place]? = some group ∧
        motor ∈ group.members ∧ link.timers[place]? = some entry ∧
        (entry.due link.burst).contains state.channel.index = true)

theorem follows_of_connect {timing : Timing} {init : List Call}
    (connected : connect settings timing answers = .ok (link, init)) :
    link.Follows (enroll settings answers) := by
  have enrolled := Roster.enrolled_enroll settings answers
  rcases exists_micros_of_connect connected with ⟨_, _, _, rfl⟩
  refine ⟨?_, ?_, ?_⟩
  · simp [wiring, motorCount, ← enrolled.assignment_eq, Roster.assignment]
  · intro motor
    rw [← Roster.channel?_assignment, enrolled.assignment_eq]
    rfl
  · rw [← Roster.timersInService_assignment, enrolled.assignment_eq]
    rfl

theorem follows_of_wiring (follows : link.Follows roster) (wiring : last.wiring = link.wiring) :
    last.Follows roster := by
  refine ⟨?_, ?_, ?_⟩
  · rw [wiring]
    exact follows.motorCount_eq
  · rw [wiring]
    exact follows.channel?_eq
  · rw [wiring]
    exact follows.timers_eq

theorem Follows.members_eq (follows : link.Follows roster) (timer : Timer) :
    link.members timer = Roster.seatedOn roster.seats timer := by
  have sameCount : link.motorCount = roster.seats.length := follows.motorCount_eq
  have onTimer (motor : Nat) :
      (link.motor? motor).any (fun state => state.channel.timer = timer) =
        (roster.seat? motor).any fun seat => seat.channel.timer = timer := by
    have sameChannel := congrArg (Option.any fun channel => channel.timer = timer)
      (follows.channel?_eq motor)
    simpa [wiring, Option.any_map, Function.comp_def] using sameChannel
  simp only [members, sameCount, onTimer]
  rfl

theorem Follows.exists_seat {state : MotorState} (follows : link.Follows roster)
    (found : link.motor? motor = some state) :
    ∃ seat, roster.seat? motor = some seat ∧ seat.channel = state.channel := by
  have wired := channel?_wiring found
  rw [follows.channel?_eq] at wired
  exact Option.map_eq_some_iff.mp wired

/-- The record of the timer of a seat is at the place of its group. -/
theorem Follows.exists_timer (follows : link.Follows roster) (sound : roster.Sound)
    (seated : roster.seat? motor = some seat) :
    ∃ entry, link.timers[seat.group]? = some entry ∧ entry.timer = seat.channel.timer := by
  have atPlace := sound.seated seated
  rw [← follows.timers_eq] at atPlace
  simpa [wiring] using atPlace

theorem Follows.getElem?_timers {entry : TimerState} (follows : link.Follows roster)
    (found : link.timers[place]? = some entry) : roster.timers[place]? = some entry.timer := by
  simp [← follows.timers_eq, wiring, found]

/-- Updating the record of a timer is updating the record at its place. -/
theorem updateTimer_eq_modify (nodup : link.wiring.timers.Nodup) {entry : TimerState}
    (found : link.timers[place]? = some entry) (update : TimerState → TimerState) :
    link.updateTimer entry.timer update =
      { link with timers := link.timers.modify place update } := by
  have places {other : Nat} {otherEntry : TimerState}
      (otherFound : link.timers[other]? = some otherEntry) :
      otherEntry.timer = entry.timer ↔ place = other := by
    constructor
    · intro sameTimer
      have same := List.inj_on_of_nodup_map nodup (List.mem_of_getElem? otherFound)
        (List.mem_of_getElem? found) sameTimer
      subst same
      exact ((List.getElem?_inj (List.getElem?_eq_some_iff.mp found).1 nodup.of_map).mp
        (found.trans otherFound.symm))
    · rintro rfl
      rw [Option.some.inj (otherFound.symm.trans found)]
  have sameTimers : (link.updateTimer entry.timer update).timers =
      link.timers.modify place update := by
    apply List.ext_getElem?
    intro other
    rw [updateTimer, List.getElem?_map, List.getElem?_modify]
    cases otherFound : link.timers[other]? with
    | none => rfl
    | some otherEntry => simp [places otherFound]
  rw [← sameTimers]
  rfl

theorem flipWhere_congr {left right : Nat → MotorState → Bool}
    (same : ∀ motor state, link.motor? motor = some state → left motor state = right motor state) :
    link.flipWhere left = link.flipWhere right := by
  have turned : link.turned left = link.turned right := by
    apply List.filterMap_congr
    rintro ⟨_ | state, motor⟩ entryMem
    · rfl
    · simp only [Option.filter_some, same motor state (motor?_eq_some_iff.mpr entryMem)]
  have motors : (link.flipWhere left).1.motors = (link.flipWhere right).1.motors := by
    apply List.ext_getElem?
    intro motor
    simp only [flipWhere, List.getElem?_mapIdx]
    rcases found : link.motors[motor]? with _ | _ | state
    · rfl
    · rfl
    · have isState : link.motor? motor = some state := by simp [motor?, found]
      simp [same motor state isState]
  -- besides the motors, only the counter goes by what is chosen
  have parts (chosen : Nat → MotorState → Bool) : (link.flipWhere chosen).1 =
      { link with
        motors := (link.flipWhere chosen).1.motors
        counters := { link.counters with
          flips := link.counters.flips + UInt32.ofNat (link.turned chosen).length } } := rfl
  refine Prod.ext ?_ ?_
  · rw [parts left, parts right, motors, turned]
  · rw [calls_flipWhere, calls_flipWhere, turned]

/-- The timer of a motor is due exactly when the record beside the group that it is a member of is. -/
theorem Follows.isDue_iff (follows : link.Follows roster) (sound : roster.Sound)
    {state : MotorState} (found : link.motor? motor = some state) :
    link.isDue state.channel = true ↔
      ∃ (place : Nat) (group : Group) (entry : TimerState), roster.groups[place]? = some group ∧
        motor ∈ group.members ∧ link.timers[place]? = some entry ∧
        (entry.due link.burst).contains state.channel.index = true := by
  rcases follows.exists_seat found with ⟨seat, seated, sameChannel⟩
  rw [Link.isDue_iff (follows.timers_eq ▸ sound.nodup), ← sameChannel]
  constructor
  · rintro ⟨entry, entryMem, onTimer, due⟩
    rcases List.getElem?_of_mem entryMem with ⟨place, atPlace⟩
    have groupTimer := follows.getElem?_timers atPlace
    rcases Roster.exists_group_of_timer groupTimer with ⟨group, groupFound, _⟩
    rw [onTimer] at groupTimer
    have samePlace := sound.place_eq groupTimer (sound.seated seated)
    exact ⟨place, group, entry, groupFound, (sound.mem_members_iff seated groupFound).mpr samePlace,
      atPlace, due⟩
  · rintro ⟨place, group, entry, groupFound, isMember, atPlace, due⟩
    obtain rfl := (sound.mem_members_iff seated groupFound).mp isMember
    have onTimer := (follows.getElem?_timers atPlace).symm.trans (sound.seated seated)
    exact ⟨entry, List.mem_of_getElem? atPlace, Option.some.inj onTimer, due⟩

/-- The motors on the timer of a seat are the members of its group. -/
theorem Follows.onTimer_iff (follows : link.Follows roster) (sound : roster.Sound)
    (seated : roster.seat? motor = some seat) (found : roster.groups[seat.group]? = some group)
    {other : Nat} {state : MotorState} (otherFound : link.motor? other = some state) :
    state.channel.timer = seat.channel.timer ↔ other ∈ group.members := by
  have groupTimer := (Roster.getElem?_timers found).symm.trans (sound.seated seated)
  rw [sound.members found, Option.some.inj groupTimer, ← follows.members_eq, mem_members]
  constructor
  · intro onTimer
    exact ⟨state, otherFound, onTimer⟩
  · rintro ⟨same, sameFound, onTimer⟩
    cases otherFound.symm.trans sameFound
    exact onTimer

/-- What the operations look up by the timer of a channel is what they find by the place of a group
and by its members. -/
theorem looksUpBy_of_follows (follows : link.Follows roster) (sound : roster.Sound) :
    link.LooksUpBy roster := by
  refine ⟨?_, ?_, ?_⟩
  · intro motor seat seated update
    rcases follows.exists_timer sound seated with ⟨entry, atPlace, onTimer⟩
    rw [← onTimer]
    exact updateTimer_eq_modify (follows.timers_eq ▸ sound.nodup) atPlace update
  · intro motor seat group seated found
    apply flipWhere_congr
    intro other state otherFound
    exact decide_eq_decide.mpr (follows.onTimer_iff sound seated found otherFound)
  · intro motor state found
    exact follows.isDue_iff sound found

theorem looksUpBy_run {timing : Timing} {init calls : List Call} {ops : List Op}
    (connected : connect settings timing answers = .ok (link, init))
    (run : link.run ops = .ok (last, calls)) : last.LooksUpBy (enroll settings answers) := by
  have follows := follows_of_wiring (follows_of_connect connected) (wiring_run run)
  exact looksUpBy_of_follows follows (Roster.enrolled_enroll settings answers).sound

end Follows

end Rotor.Link

import Rotor.Proofs.Link.Connected
import Rotor.Proofs.Link.Turns

/-!
# Calls that name a channel

Most calls of a link go to one channel, and a link makes them motor by motor. So what is called on
the channel of a motor is what is called for this motor, as soon as no other motor has the channel
(`Link.naming_byMotor`). This gives the calls on a channel when the link is connected, when a frame
begins and when motors are turned to input.
-/

namespace Rotor

/-- The channel that a call names. A call on a whole timer names none. -/
def Call.channel? : Call → Option Channel
  | .drive channel | .listen channel | .enable channel | .load channel _ | .arm channel _
  | .halt channel | .fetch channel _ => some channel
  | _ => none

/-- The calls that name a channel, in their order. -/
def naming (channel : Channel) (calls : List Call) : List Call :=
  calls.filter fun call => call.channel? = some channel

/-- A motor has a channel that no other motor shares. Of a channel number the low two bits count. -/
structure Wiring.Reserves (wiring : Wiring) (motor : Nat) (channel : Channel) : Prop where
  own : wiring.channel? motor = some channel
  apart : ∀ other otherChannel, wiring.channel? other = some otherChannel →
    otherChannel.timer = channel.timer → otherChannel.toSet = channel.toSet → other = motor

section Naming

variable {channel : Channel} {calls made : List Call}

@[simp]
theorem naming_append (channel : Channel) (calls made : List Call) :
    naming channel (calls ++ made) = naming channel calls ++ naming channel made :=
  List.filter_append ..

theorem naming_singleton (channel : Channel) (call : Call) :
    naming channel [call] = if call.channel? = some channel then [call] else [] := by
  simp [naming, List.filter_cons]

theorem naming_of_all (all : ∀ call ∈ calls, call.channel? = some channel) :
    naming channel calls = calls := by
  apply List.filter_eq_self.mpr
  simpa using all

theorem naming_of_none (others : ∀ call ∈ calls, call.channel? ≠ some channel) :
    naming channel calls = [] := by
  apply List.filter_eq_nil_iff.mpr
  simpa using others

end Naming

theorem Wiring.Reserves.channel_ne {wiring : Wiring} {motor other : Nat}
    {channel otherChannel : Channel} (reserves : wiring.Reserves motor channel)
    (wired : wiring.channel? other = some otherChannel) (differ : other ≠ motor) :
    otherChannel ≠ channel := by
  rintro rfl
  exact differ (reserves.apart other otherChannel wired rfl rfl)

namespace Link

variable {link : Link} {motor : Nat} {state : MotorState} {channel : Channel}

section ByMotor

theorem flatMap_range_ite {α : Type} (value : List α) {motor count : Nat}
    (inRange : motor < count) :
    (List.range count).flatMap (fun other => if other = motor then value else []) = value := by
  induction count with
  | zero => exact absurd inRange (Nat.not_lt_zero motor)
  | succ count ih =>
      rw [List.range_succ, List.flatMap_append]
      rcases Nat.lt_succ_iff_lt_or_eq.mp inRange with before | rfl
      · simp [ih before, Nat.ne_of_gt before]
      · have others : (List.range motor).flatMap
            (fun other => if other = motor then value else []) = [] := by
          apply List.flatMap_eq_nil_iff.mpr
          intro other otherMem
          exact if_neg (Nat.ne_of_lt (List.mem_range.mp otherMem))
        simp [others]

/-- Of calls that are made motor by motor, those that name the channel of a motor are the calls for
this motor. -/
theorem naming_byMotor (reserves : link.wiring.Reserves motor channel)
    (found : link.motor? motor = some state) (make : Option MotorState × Nat → List Call)
    (names : ∀ entry, ∀ call ∈ make entry, ∃ state, entry.1 = some state ∧
      call.channel? = some state.channel) :
    naming channel (link.motors.zipIdx.flatMap make) = make (some state, motor) := by
  have own : state.channel = channel :=
    Option.some.inj ((channel?_wiring found).symm.trans reserves.own)
  have single : ∀ entry ∈ link.motors.zipIdx, naming channel (make entry) =
      if entry.2 = motor then make (some state, motor) else [] := by
    rintro ⟨state?, other⟩ entryMem
    split
    · next same =>
      obtain rfl : other = motor := same
      have sameEntry : state? = some state := by
        have atMotor := List.mem_zipIdx_iff_getElem?.mp entryMem
        simpa [motor?, atMotor] using found
      rw [sameEntry]
      apply naming_of_all
      intro call callMem
      rcases names _ call callMem with ⟨_, isState, named⟩
      cases isState
      rw [named, own]
    · next differ =>
      apply naming_of_none
      intro call callMem named
      rcases names _ call callMem with ⟨otherState, isState, otherNamed⟩
      cases isState
      have wired := channel?_wiring (motor?_eq_some_iff.mpr entryMem)
      exact reserves.channel_ne wired differ (Option.some.inj (otherNamed.symm.trans named))
  calc
    naming channel (link.motors.zipIdx.flatMap make)
        = link.motors.zipIdx.flatMap fun entry => naming channel (make entry) :=
      List.filter_flatMap
    _ = link.motors.zipIdx.flatMap fun entry =>
          if entry.2 = motor then make (some state, motor) else [] :=
      List.flatMap_congr single
    _ = (link.motors.zipIdx.map Prod.snd).flatMap fun other =>
          if other = motor then make (some state, motor) else [] := by
      rw [List.flatMap_map]
    _ = make (some state, motor) := by
      rw [List.zipIdx_map_snd, ← List.range_eq_range']
      exact flatMap_range_ite _ (lt_motorCount_of_motor? found)

/-- The same for calls that depend on the state of a motor alone. -/
theorem naming_connected (reserves : link.wiring.Reserves motor channel)
    (found : link.motor? motor = some state) (make : MotorState → List Call)
    (names : ∀ state, ∀ call ∈ make state, call.channel? = some state.channel) :
    naming channel ((link.motors.filterMap id).flatMap make) = make state := by
  have byMotor : (link.motors.filterMap id).flatMap make =
      link.motors.zipIdx.flatMap fun entry => entry.1.toList.flatMap make := by
    conv_lhs => rw [← List.zipIdx_map_fst 0 link.motors]
    rw [List.filterMap_eq_flatMap_toList, List.flatMap_assoc, List.flatMap_map]
    rfl
  rw [byMotor, naming_byMotor reserves found]
  · simp
  · rintro ⟨state?, other⟩ call callMem
    cases state? with
    | none => simp at callMem
    | some otherState => exact ⟨otherState, rfl, names otherState call (by simpa using callMem)⟩

end ByMotor

section BeginFrame

theorem channel?_of_mem_beginCalls {encoding : Encoding} {call : Call}
    (callMem : call ∈ state.beginCalls encoding) : call.channel? = some state.channel := by
  rcases mem_beginCalls callMem with rfl | rfl <;> rfl

theorem naming_beginFrame (speaking : link.telemetry = true)
    (reserves : link.wiring.Reserves motor channel) (found : link.motor? motor = some state) :
    naming channel link.beginFrame.2 =
      state.beginCalls link.encoding ++ [.enable state.channel] := by
  rw [calls_beginFrame speaking, naming_append, List.map_eq_flatMap,
    naming_connected reserves found _ fun _ _ => channel?_of_mem_beginCalls,
    naming_connected reserves found]
  intro other call callMem
  rw [List.mem_singleton.mp callMem]
  rfl

end BeginFrame

section Flips

theorem channel?_of_mem_flipCalls {encoding : Encoding} {call : Call}
    (callMem : call ∈ state.flipCalls encoding) : call.channel? = some state.channel := by
  unfold MotorState.flipCalls at callMem
  split at callMem
  · simp at callMem
  · simp only [List.mem_cons, List.not_mem_nil, or_false] at callMem
    rcases callMem with rfl | rfl <;> rfl

/-- A motor at output that is among the chosen ones is turned, and its channel is armed at once. -/
theorem naming_flipWhere (reserves : link.wiring.Reserves motor channel)
    (found : link.motor? motor = some state) (chosen : Nat → MotorState → Bool) :
    naming channel (link.flipWhere chosen).2 =
      if chosen motor state && state.direction == .output then
        [.listen state.channel, .arm state.channel link.encoding.captureLength]
      else [] := by
  have byMotor : (link.flipWhere chosen).2 = link.motors.zipIdx.flatMap fun entry =>
      (entry.1.filter fun state =>
        chosen entry.2 state && state.direction == .output).toList.flatMap
          (MotorState.flipCalls · link.encoding) := by
    simp only [flipWhere]
    rw [List.filterMap_eq_flatMap_toList, List.flatMap_assoc]
  rw [byMotor, naming_byMotor reserves found]
  · rw [Option.filter_some]
    split
    · next flips =>
      have driving : state.direction = .output := by simpa using (Bool.and_eq_true_iff.mp flips).2
      simp [MotorState.flipCalls, driving]
    · rfl
  · rintro ⟨state?, other⟩ call callMem
    rcases List.mem_flatMap.mp callMem with ⟨otherState, kept, flips⟩
    rcases Option.filter_eq_some_iff.mp (Option.mem_toList.mp kept) with ⟨isState, _⟩
    exact ⟨otherState, isState, channel?_of_mem_flipCalls flips⟩

end Flips

section Connecting

namespace Assignment

variable {assignment : Assignment}

/-- Of the calls made so far, those that name a channel drive and enable the channels of the motors
in their order. -/
def Announced (assignment : Assignment) : Prop :=
  assignment.calls.filter (fun call => call.channel?.isSome) =
    (assignment.motors.filterMap id).flatMap fun state =>
      [.drive state.channel, .enable state.channel]

theorem announced_call (announced : assignment.Announced) {call : Call}
    (unnamed : call.channel? = none) :
    Announced { assignment with calls := assignment.calls ++ [call] } := by
  unfold Announced at announced ⊢
  simpa [unnamed] using announced

theorem announced_skip (announced : assignment.Announced) : assignment.skip.Announced := by
  unfold Announced at announced ⊢
  simpa [skip] using announced

theorem announced_introduce (announced : assignment.Announced) (protocol : Protocol)
    (timer : Timer) : (assignment.introduce protocol timer).Announced := by
  unfold introduce
  split
  · exact announced
  · exact announced_call announced rfl

theorem announced_attach (announced : assignment.Announced) (channel : Channel) :
    (assignment.attach channel).Announced := by
  unfold attach
  split
  · unfold Announced at announced ⊢
    rw [List.filter_append, List.filterMap_append, List.flatMap_append, announced]
    rfl
  · exact announced_skip announced

theorem announced_claim (announced : assignment.Announced) (settings : MotorSettings)
    (motor : Nat) (answer : Except ClaimError Channel) :
    (assignment.claim settings motor answer).Announced := by
  have claimed : Announced
      { assignment with calls := assignment.calls ++ [.claim motor settings.burst] } :=
    announced_call announced rfl
  unfold claim
  split
  · exact announced_skip claimed
  · exact announced_attach (announced_introduce claimed _ _) _

end Assignment

theorem announced_claimAll (settings : MotorSettings)
    (answers : Nat → Except ClaimError Channel) : (claimAll settings answers).Announced := by
  refine Assignment.claimAll_induction (motive := fun _ assignment => assignment.Announced) rfl ?_
  intro count assignment announced
  exact Assignment.announced_claim announced settings count _

variable {settings : MotorSettings} {timing : Timing} {answers : Nat → Except ClaimError Channel}
  {init : List Call}

theorem announced_of_connect (connected : connect settings timing answers = .ok (link, init)) :
    init.filter (fun call => call.channel?.isSome) =
      (link.motors.filterMap id).flatMap fun state =>
        [.drive state.channel, .enable state.channel] := by
  rcases exists_micros_of_connect connected with ⟨micros, _, rfl, rfl⟩
  exact announced_claimAll settings answers

/-- Connecting a link drives and enables the channel of a motor, and calls nothing else on it. -/
theorem naming_of_connect (connected : connect settings timing answers = .ok (link, init))
    (reserves : link.wiring.Reserves motor channel) :
    naming channel init = [.drive channel, .enable channel] := by
  rcases exists_motor?_of_channel? reserves.own with ⟨state, found, rfl⟩
  have narrowed : naming state.channel init =
      naming state.channel (init.filter fun call => call.channel?.isSome) := by
    simp only [naming, List.filter_filter]
    apply List.filter_congr
    intro call _
    cases named : call.channel? <;> simp
  rw [narrowed, announced_of_connect connected, naming_connected reserves found]
  simp [Call.channel?]

end Connecting

end Link

end Rotor

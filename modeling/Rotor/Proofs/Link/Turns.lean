import Mathlib.Data.List.Nodup
import Rotor.Proofs.Link.Runs

/-!
# Turning channels

A channel is turned to output when a frame begins, and to input when it has finished sending. The
calls that were made tell which way a channel was turned last (`lastTurn`), and whether the channels
that were turned to input were armed (`ArmsAtOnce`). The beginning of a frame drives and enables
every channel, and a flip turns the channels of the chosen motors one by one.
-/

namespace Rotor

namespace Call

/-- The way that a call turns a channel, none for a call that does not turn it. -/
def turns? (channel : Channel) : Call → Option Direction
  | .drive other => if other = channel then some .output else none
  | .listen other => if other = channel then some .input else none
  | _ => none

/-- Whether a call turns a channel to input. -/
def isListen : Call → Bool
  | .listen _ => true
  | _ => false

/-- Whether a call lets a channel capture. -/
def isArm : Call → Bool
  | .arm _ _ => true
  | _ => false

/-- Whether a call neither turns a channel nor lets one capture. -/
def isStill : Call → Bool
  | .drive _ | .listen _ | .arm _ _ => false
  | _ => true

theorem turns?_of_isStill {call : Call} (still : call.isStill = true) (channel : Channel) :
    call.turns? channel = none := by
  cases call <;> simp_all [isStill, turns?]

theorem isListen_of_isStill {call : Call} (still : call.isStill = true) :
    call.isListen = false := by
  cases call <;> simp_all [isStill, isListen]

theorem isArm_of_isStill {call : Call} (still : call.isStill = true) : call.isArm = false := by
  cases call <;> simp_all [isStill, isArm]

end Call

/-- The way that a channel was turned last. -/
def lastTurn (channel : Channel) (calls : List Call) : Option Direction :=
  (calls.filterMap (Call.turns? channel)).getLast?

/-- Among calls that follow earlier ones, a channel is turned to input only when it is at output,
and it is armed by the very next call. -/
def ArmsAtOnce (room : Nat) (earlier calls : List Call) : Prop :=
  ∀ before channel after, calls = before ++ .listen channel :: after →
    lastTurn channel (earlier ++ before) = some .output ∧
      ∃ rest, after = .arm channel room :: rest

/-- The calls that turn channels to input and arm them. -/
def flipsOf (room : Nat) (channels : List Channel) : List Call :=
  channels.flatMap fun channel => [.listen channel, .arm channel room]

section Traces

variable {channel : Channel} {direction : Direction} {room : Nat} {channels : List Channel}
  {call : Call} {earlier calls made : List Call}

theorem lastTurn_append (channel : Channel) (calls made : List Call) :
    lastTurn channel (calls ++ made) = (lastTurn channel made).or (lastTurn channel calls) := by
  simp [lastTurn, List.getLast?_append]

theorem lastTurn_of_isStill (still : ∀ call ∈ made, call.isStill = true) (channel : Channel) :
    lastTurn channel made = none := by
  have nothing : made.filterMap (Call.turns? channel) = [] := by
    rw [List.filterMap_eq_nil_iff]
    intro call callMem
    exact Call.turns?_of_isStill (still call callMem) channel
  rw [lastTurn, nothing]
  rfl

/-- Where all calls that a reading applies to agree in it, the last of them has it. -/
theorem getLast?_filterMap_of_only {α : Type} {reading : Call → Option α} {value : α}
    (made : call ∈ calls) (reads : reading call = some value)
    (only : ∀ other ∈ calls, ∀ found, reading other = some found → found = value) :
    (calls.filterMap reading).getLast? = some value := by
  have valueMem : value ∈ calls.filterMap reading := List.mem_filterMap.mpr ⟨call, made, reads⟩
  rcases List.getLast?_isSome.mpr (List.ne_nil_of_mem valueMem) |> Option.isSome_iff_exists.mp with
    ⟨found, lastIs⟩
  rcases List.mem_filterMap.mp (List.mem_of_getLast? lastIs) with ⟨other, otherMem, otherReads⟩
  rw [lastIs, only other otherMem found otherReads]

/-- Where all turns of a channel go the same way, this is its last turn. -/
theorem lastTurn_of_only (turned : call ∈ calls) (turns : call.turns? channel = some direction)
    (only : ∀ other ∈ calls, ∀ way, other.turns? channel = some way → way = direction) :
    lastTurn channel calls = some direction :=
  getLast?_filterMap_of_only turned turns only

/-- Where a channel was driven and none was turned to input, it is at output. -/
theorem lastTurn_of_no_listen (driven : .drive channel ∈ calls)
    (noListen : ∀ call ∈ calls, call.isListen = false) :
    lastTurn channel calls = some .output := by
  apply lastTurn_of_only driven (if_pos rfl)
  intro other otherMem way turns
  have kept := noListen other otherMem
  cases other <;> simp_all [Call.turns?, Call.isListen]

theorem armsAtOnce_cons_iff :
    ArmsAtOnce room earlier (call :: calls) ↔
      (∀ channel, call = .listen channel →
        lastTurn channel earlier = some .output ∧ ∃ rest, calls = .arm channel room :: rest) ∧
      ArmsAtOnce room (earlier ++ [call]) calls := by
  constructor
  · intro armed
    refine ⟨?_, ?_⟩
    · rintro channel rfl
      simpa using armed [] channel calls rfl
    · rintro before channel after rfl
      simpa using armed (call :: before) channel after rfl
  · rintro ⟨head, tail⟩ before channel after split
    cases before with
    | nil =>
        obtain ⟨rfl, rfl⟩ := List.cons.inj split
        simpa using head channel rfl
    | cons first before =>
        obtain ⟨rfl, rfl⟩ := List.cons.inj split
        simpa using tail before channel after rfl

theorem armsAtOnce_append (front : ArmsAtOnce room earlier calls)
    (back : ArmsAtOnce room (earlier ++ calls) made) : ArmsAtOnce room earlier (calls ++ made) := by
  induction calls generalizing earlier with
  | nil => simpa using back
  | cons call calls ih =>
      rw [armsAtOnce_cons_iff] at front
      rw [List.cons_append, armsAtOnce_cons_iff]
      refine ⟨?_, ih front.2 (by simpa using back)⟩
      intro channel turns
      rcases front.1 channel turns with ⟨driven, rest, rfl⟩
      exact ⟨driven, rest ++ made, rfl⟩

theorem armsAtOnce_of_no_listen (noListen : ∀ call ∈ calls, call.isListen = false) :
    ArmsAtOnce room earlier calls := by
  rintro before channel after rfl
  simpa [Call.isListen] using noListen (.listen channel) (by simp)

theorem mem_flipsOf : call ∈ flipsOf room channels ↔
    ∃ channel ∈ channels, call = .listen channel ∨ call = .arm channel room := by
  simp [flipsOf]

theorem flipsOf_cons (room : Nat) (channel : Channel) (rest : List Channel) :
    flipsOf room (channel :: rest) =
      .listen channel :: .arm channel room :: flipsOf room rest :=
  rfl

theorem lastTurn_flipsOf_of_mem (turned : channel ∈ channels) :
    lastTurn channel (flipsOf room channels) = some .input := by
  apply lastTurn_of_only (mem_flipsOf.mpr ⟨channel, turned, .inl rfl⟩) (if_pos rfl)
  intro other otherMem way turns
  rcases mem_flipsOf.mp otherMem with ⟨_, _, rfl | rfl⟩
  · simp only [Call.turns?, Option.ite_none_right_eq_some, Option.some.injEq] at turns
    exact turns.2.symm
  · simp [Call.turns?] at turns

theorem lastTurn_flipsOf_of_not_mem (unturned : channel ∉ channels) :
    lastTurn channel (flipsOf room channels) = none := by
  have nothing : (flipsOf room channels).filterMap (Call.turns? channel) = [] := by
    rw [List.filterMap_eq_nil_iff]
    intro call callMem
    rcases mem_flipsOf.mp callMem with ⟨other, otherMem, rfl | rfl⟩
    · have differ : other ≠ channel := by
        rintro rfl
        exact unturned otherMem
      simp [Call.turns?, differ]
    · rfl
  rw [lastTurn, nothing]
  rfl

theorem armsAtOnce_flipsOf (nodup : channels.Nodup)
    (driven : ∀ channel ∈ channels, lastTurn channel earlier = some .output) :
    ArmsAtOnce room earlier (flipsOf room channels) := by
  induction channels generalizing earlier with
  | nil => exact armsAtOnce_of_no_listen (by simp [flipsOf])
  | cons channel rest ih =>
      rw [List.nodup_cons] at nodup
      have later : ArmsAtOnce room ((earlier ++ [.listen channel]) ++ [.arm channel room])
          (flipsOf room rest) := by
        apply ih nodup.2
        intro other otherMem
        have differ : channel ≠ other := fun same => nodup.1 (same ▸ otherMem)
        have untouched : lastTurn other ([.listen channel, .arm channel room]) = none := by
          simp [lastTurn, Call.turns?, differ]
        rw [List.append_assoc, lastTurn_append]
        exact (congrArg (Option.or · _) untouched).trans (driven other (by simp [otherMem]))
      rw [flipsOf_cons, armsAtOnce_cons_iff, armsAtOnce_cons_iff]
      refine ⟨?_, ?_, later⟩
      · intro other same
        cases same
        exact ⟨driven channel List.mem_cons_self, _, rfl⟩
      · intro other same
        cases same

theorem countP_isListen_flipsOf (room : Nat) (channels : List Channel) :
    (flipsOf room channels).countP Call.isListen = channels.length := by
  induction channels with
  | nil => rfl
  | cons channel rest ih => simp [flipsOf_cons, List.countP_cons, Call.isListen, ih]

theorem countP_isArm_flipsOf (room : Nat) (channels : List Channel) :
    (flipsOf room channels).countP Call.isArm = channels.length := by
  induction channels with
  | nil => rfl
  | cons channel rest ih => simp [flipsOf_cons, List.countP_cons, Call.isArm, ih]

end Traces

namespace Link

variable {link : Link} {motor : Nat} {state : MotorState}

section Flips

/-- The motors among the chosen ones whose channels are turned to input. -/
def turned (link : Link) (chosen : Nat → MotorState → Bool) : List MotorState :=
  link.motors.zipIdx.filterMap fun (state?, motor) =>
    state?.filter fun state => chosen motor state && state.direction == .output

theorem motor?_eq_some_iff : link.motor? motor = some state ↔
    (some state, motor) ∈ link.motors.zipIdx := by
  simp [motor?, List.mem_zipIdx_iff_getElem?, Option.join_eq_some_iff]

theorem mem_turned {chosen : Nat → MotorState → Bool} : state ∈ link.turned chosen ↔
    ∃ motor, link.motor? motor = some state ∧ chosen motor state = true ∧
      state.direction = .output := by
  simp only [turned, List.mem_filterMap, Prod.exists, Option.filter_eq_some_iff, motor?_eq_some_iff,
    Bool.and_eq_true, beq_iff_eq]
  constructor
  · rintro ⟨_, motor, entryMem, rfl, kept⟩
    exact ⟨motor, entryMem, kept⟩
  · rintro ⟨motor, entryMem, kept⟩
    exact ⟨_, motor, entryMem, rfl, kept⟩

theorem nodup_turned (sound : link.wiring.Sound) (chosen : Nat → MotorState → Bool) :
    ((link.turned chosen).map MotorState.channel).Nodup := by
  -- The numbers of the motors are apart from the start, while motors without a channel are alike.
  have apart : link.motors.zipIdx.Pairwise fun entry other => entry.2 ≠ other.2 := by
    have indices : (link.motors.zipIdx.map Prod.snd).Nodup := by
      simp [List.zipIdx_map_snd, List.nodup_range']
    exact List.pairwise_map.mp indices
  rw [List.Nodup, List.pairwise_map, turned, List.pairwise_filterMap]
  refine apart.imp_of_mem ?_
  rintro ⟨first?, motor⟩ ⟨second?, other⟩ firstMem secondMem differ first firstKept second
    secondKept sameChannel
  obtain ⟨rfl, _⟩ := Option.filter_eq_some_iff.mp firstKept
  obtain ⟨rfl, _⟩ := Option.filter_eq_some_iff.mp secondKept
  have wired := channel?_wiring (motor?_eq_some_iff.mpr firstMem)
  have otherWired := channel?_wiring (motor?_eq_some_iff.mpr secondMem)
  exact differ (sound.distinct wired (sameChannel ▸ otherWired))

/-- A channel is turned exactly when its own motor is, since no other motor has it. -/
theorem channel_mem_turned_iff (sound : link.wiring.Sound) (found : link.motor? motor = some state)
    {chosen : Nat → MotorState → Bool} :
    state.channel ∈ (link.turned chosen).map MotorState.channel ↔
      chosen motor state = true ∧ state.direction = .output := by
  constructor
  · intro channelMem
    rcases List.mem_map.mp channelMem with ⟨other, otherMem, sameChannel⟩
    rcases mem_turned.mp otherMem with ⟨otherMotor, otherFound, flips⟩
    obtain rfl : otherMotor = motor := sound.distinct (channel?_wiring otherFound)
      (sameChannel ▸ channel?_wiring found)
    obtain rfl : other = state := by simpa [found] using otherFound.symm
    exact flips
  · intro flips
    exact List.mem_map_of_mem (mem_turned.mpr ⟨motor, found, flips⟩)

theorem calls_flipWhere (link : Link) (chosen : Nat → MotorState → Bool) :
    (link.flipWhere chosen).2 =
      flipsOf link.encoding.captureLength ((link.turned chosen).map MotorState.channel) := by
  rw [flipsOf, List.flatMap_map]
  apply List.flatMap_congr
  intro state stateMem
  rcases mem_turned.mp stateMem with ⟨_, _, _, driving⟩
  simp [MotorState.flipCalls, driving]

theorem flips_flipWhere (link : Link) (chosen : Nat → MotorState → Bool) :
    (link.flipWhere chosen).1.counters.flips =
      link.counters.flips + UInt32.ofNat (link.turned chosen).length :=
  rfl

end Flips

section BeginFrame

theorem mem_beginCalls {encoding : Encoding} {call : Call}
    (callMem : call ∈ state.beginCalls encoding) :
    call = .halt state.channel ∨ call = .drive state.channel := by
  unfold MotorState.beginCalls at callMem
  split at callMem
  · simpa using callMem
  · exact Or.inr (List.mem_singleton.mp callMem)

theorem drive_mem_beginCalls (state : MotorState) (encoding : Encoding) :
    .drive state.channel ∈ state.beginCalls encoding := by
  unfold MotorState.beginCalls
  split <;> simp

theorem calls_beginFrame (speaking : link.telemetry = true) :
    link.beginFrame.2 =
      (link.motors.filterMap id).flatMap (fun state => state.beginCalls link.encoding) ++
        (link.motors.filterMap id).map fun state => .enable state.channel := by
  simp [beginFrame, speaking]

theorem mem_connected : state ∈ link.motors.filterMap id ↔
    ∃ motor, link.motor? motor = some state := by
  rw [List.mem_filterMap]
  simp [motor?, Option.join_eq_some_iff, List.mem_iff_getElem?]

theorem quiet_of_mem_beginFrame {call : Call} (callMem : call ∈ link.beginFrame.2) :
    call.isListen = false ∧ call.isArm = false := by
  rcases Bool.eq_false_or_eq_true link.telemetry with speaking | silent
  · rw [calls_beginFrame speaking, List.mem_append, List.mem_flatMap, List.mem_map] at callMem
    rcases callMem with ⟨state, _, callMem⟩ | ⟨state, _, rfl⟩
    · rcases mem_beginCalls callMem with rfl | rfl <;> exact ⟨rfl, rfl⟩
    · exact ⟨rfl, rfl⟩
  · simp [beginFrame_of_silent silent] at callMem

theorem drive_mem_beginFrame (speaking : link.telemetry = true)
    (found : link.motor? motor = some state) : .drive state.channel ∈ link.beginFrame.2 := by
  rw [calls_beginFrame speaking, List.mem_append, List.mem_flatMap]
  exact Or.inl ⟨state, mem_connected.mpr ⟨motor, found⟩, drive_mem_beginCalls state _⟩

/-- A channel that the beginning of a frame drives is enabled after it. -/
theorem enable_mem_of_drive {before after : List Call} {channel : Channel}
    (split : link.beginFrame.2 = before ++ .drive channel :: after) :
    .enable channel ∈ after := by
  rcases Bool.eq_false_or_eq_true link.telemetry with speaking | silent
  · -- The channel is driven in the first part of the calls, so all enabling comes after it.
    have notEnabled : Call.drive channel ∉ (link.motors.filterMap id).map
        fun state => Call.enable state.channel := by
      simp
    rw [calls_beginFrame speaking, List.append_eq_append_iff] at split
    rcases split with ⟨middle, _, enables⟩ | ⟨middle, begins, enables⟩
    · rw [enables] at notEnabled
      simp at notEnabled
    · cases middle with
      | nil =>
          rw [List.nil_append] at enables
          rw [← enables] at notEnabled
          simp at notEnabled
      | cons first middle =>
          obtain ⟨rfl, rfl⟩ := List.cons.inj enables
          have driven : Call.drive channel ∈ (link.motors.filterMap id).flatMap
              fun state => state.beginCalls link.encoding := by
            rw [begins]
            simp
          rcases List.mem_flatMap.mp driven with ⟨state, stateMem, callMem⟩
          rcases mem_beginCalls callMem with other | same
          · cases other
          · cases same
            exact List.mem_append_right _ (List.mem_map.mpr ⟨state, stateMem, rfl⟩)
  · simp [beginFrame_of_silent silent] at split

end BeginFrame

end Link

end Rotor

import Rotor.Proofs.Link.Effects

/-!
# The wiring of a link

What is settled when a link is connected never changes afterwards: the encoding, the modes, the
channels of the motors and the timers in service. `Link.wiring` is that part of a link, and
`Link.wiring_effect` says that every operation keeps it.
-/

namespace Rotor

/-- What is settled when a link is connected. -/
structure Wiring where
  encoding : Encoding
  telemetry : Bool
  burst : Bool
  motorCount : Nat
  /-- The channel of a motor, none for a motor without one. -/
  channel? : Nat → Option Channel
  /-- The timers in service. -/
  timers : List Timer

/-- A wiring in which every motor has a channel of its own on a timer in service, and every timer
in service has a motor. -/
structure Wiring.Sound (wiring : Wiring) : Prop where
  index_lt : ∀ {motor channel}, wiring.channel? motor = some channel →
    channel.index.toNat < channelsPerTimer
  distinct : ∀ {motor other channel}, wiring.channel? motor = some channel →
    wiring.channel? other = some channel → motor = other
  known : ∀ {motor channel}, wiring.channel? motor = some channel →
    channel.timer ∈ wiring.timers
  used : ∀ {timer}, timer ∈ wiring.timers →
    ∃ motor channel, wiring.channel? motor = some channel ∧ channel.timer = timer
  nodup : wiring.timers.Nodup

/-- A channel that some motor has. -/
def Wiring.InUse (wiring : Wiring) (channel : Channel) : Prop :=
  ∃ motor, wiring.channel? motor = some channel

/-- No two motors have one channel. -/
def Wiring.Distinct (wiring : Wiring) : Prop :=
  ∀ motor other channel, wiring.channel? motor = some channel →
    wiring.channel? other = some channel → motor = other

/-- With bursts, every motor has a lane in the burst of its timer. -/
def Wiring.LanesFit (wiring : Wiring) : Prop :=
  wiring.burst = true → ∀ motor channel, wiring.channel? motor = some channel →
    channel.index.toNat < channelsPerTimer

theorem Wiring.Sound.lanesFit {wiring : Wiring} (sound : wiring.Sound) : wiring.LanesFit :=
  fun _ _ _ wired => sound.index_lt wired

theorem Wiring.lanesFit_of_single {wiring : Wiring} (single : wiring.burst = false) :
    wiring.LanesFit := by
  intro bursts
  rw [single] at bursts
  cases bursts

namespace Link

variable {link next : Link} {motor : Nat} {state : MotorState}

/-- The wiring of a link. -/
def wiring (link : Link) : Wiring where
  encoding := link.encoding
  telemetry := link.telemetry
  burst := link.burst
  motorCount := link.motorCount
  channel? motor := (link.motor? motor).map MotorState.channel
  timers := link.timers.map TimerState.timer

theorem channel?_wiring (found : link.motor? motor = some state) :
    link.wiring.channel? motor = some state.channel := by
  simp [wiring, found]

theorem exists_motor?_of_channel? {channel : Channel}
    (wired : link.wiring.channel? motor = some channel) :
    ∃ state, link.motor? motor = some state ∧ state.channel = channel := by
  simpa [wiring] using wired

theorem motor?_eq_none_of_le (beyond : link.motorCount ≤ motor) : link.motor? motor = none := by
  simp [motor?, List.getElem?_eq_none beyond]

theorem lt_motorCount_of_motor? (found : link.motor? motor = some state) :
    motor < link.motorCount := by
  by_contra beyond
  simp [motor?_eq_none_of_le (Nat.le_of_not_lt beyond)] at found

section Operations

@[simp]
theorem wiring_beginFrame (link : Link) : link.beginFrame.1.wiring = link.wiring := by
  cases speaking : link.telemetry with
  | false => rw [beginFrame_of_silent speaking]
  | true =>
      have channels (motor : Nat) : (link.beginFrame.1.motor? motor).map MotorState.channel =
          (link.motor? motor).map MotorState.channel := by
        rw [motor?_beginFrame speaking, Option.map_map]
        rfl
      simp only [wiring, channels, timers_beginFrame]
      simp [beginFrame, speaking, motorCount]

@[simp]
theorem wiring_staged (link : Link) (motor : Nat) (throttle : UInt16) (channel : Channel) :
    (link.staged motor throttle channel).wiring = link.wiring := by
  have channels (other : Nat) :
      ((link.staged motor throttle channel).motor? other).map MotorState.channel =
        (link.motor? other).map MotorState.channel :=
    map_motor?_staged _ (fun _ _ => rfl) link motor throttle channel other
  have timers : (link.staged motor throttle channel).timers.map TimerState.timer =
      link.timers.map TimerState.timer := by
    simp only [staged, updateTimer, updateMotor, List.map_map]
    apply List.map_congr_left
    intro entry _
    simp only [Function.comp_apply]
    split
    · split <;> rfl
    · rfl
  simp only [wiring, channels, timers]
  simp [staged, updateTimer, updateMotor, motorCount]

@[simp]
theorem wiring_fire (link : Link) : link.fire.1.wiring = link.wiring := by
  have channels (motor : Nat) : (link.fire.1.motor? motor).map MotorState.channel =
      (link.motor? motor).map MotorState.channel :=
    map_motor?_fire _ (fun _ _ => rfl) link motor
  have timers : link.fire.1.timers.map TimerState.timer = link.timers.map TimerState.timer := by
    simp only [fire, List.map_map]
    apply List.map_congr_left
    intro entry _
    simp only [Function.comp_apply, TimerState.started]
    split <;> rfl
  simp only [wiring, channels, timers]
  simp [fire, motorCount]

@[simp]
theorem wiring_transferDone (link : Link) (target : Nat) (capture : Capture) :
    (link.transferDone target capture).1.wiring = link.wiring := by
  have channels (motor : Nat) :
      ((link.transferDone target capture).1.motor? motor).map MotorState.channel =
        (link.motor? motor).map MotorState.channel :=
    map_motor?_transferDone _ (fun _ => rfl) (fun _ _ => rfl) link target capture motor
  simp only [wiring, channels, timers_transferDone, motorCount_transferDone]
  rw [transferDone_fst]

/-- Every operation keeps the wiring. -/
theorem wiring_effect {op : Op} {calls : List Call} (effect : link.Effect op next calls) :
    next.wiring = link.wiring := by
  cases effect with
  | beginFrame => exact wiring_beginFrame link
  | writeAbsent throttle absent => rfl
  | write throttle found => exact wiring_staged link _ throttle _
  | endHeld held => rfl
  | endReleased released => exact wiring_fire _
  | transferDone motor capture => exact wiring_transferDone link motor capture
  | send target command => rfl

end Operations

end Link

end Rotor

import Rotor.Proofs.Link.Exchange

/-!
# Two links that look alike

A `Link.View` picks a part of what a link knows of its motors and of its counters. Two links that
look the same in it may differ in everything else, and the question is which operations keep them
alike. Staging does as soon as the view is `Link.View.Faithful`: it then shows the channel of a
motor, and whatever else it shows changes by what it shows.

Two computations are compared by `Alike`, which allows for faults: both end in the same one, or both
end well.
-/

namespace Rotor

/-- Two computations end in the same fault, or both end well and their results are related. -/
inductive Alike {α β : Type} (related : α → β → Prop) : Except Fault α → Except Fault β → Prop
  | fault (fault : Fault) : Alike related (.error fault) (.error fault)
  | done {left : α} {right : β} (relates : related left right) :
      Alike related (.ok left) (.ok right)

namespace Alike

variable {α β γ δ : Type} {related : α → β → Prop} {relatedNext : γ → δ → Prop}
  {left : Except Fault α} {right : Except Fault β}

theorem bind_of_eq {first : α → Except Fault γ} {second : β → Except Fault δ}
    (alike : Alike related left right)
    (next : ∀ one other, left = .ok one → right = .ok other → related one other →
      Alike relatedNext (first one) (second other)) :
    Alike relatedNext (left >>= first) (right >>= second) := by
  cases alike with
  | fault fault => exact .fault fault
  | done relates => exact next _ _ rfl rfl relates

theorem bind {first : α → Except Fault γ} {second : β → Except Fault δ}
    (alike : Alike related left right)
    (next : ∀ one other, related one other → Alike relatedNext (first one) (second other)) :
    Alike relatedNext (left >>= first) (right >>= second) :=
  alike.bind_of_eq fun one other _ _ relates => next one other relates

theorem imp {weaker : α → β → Prop} (alike : Alike related left right)
    (implies : ∀ one other, related one other → weaker one other) : Alike weaker left right := by
  cases alike with
  | fault fault => exact .fault fault
  | done relates => exact .done (implies _ _ relates)

/-- Computations whose results have to look the same are compared by what they show. -/
theorem iff_map_eq {view : α → γ} {other : Except Fault α} :
    Alike (fun one two => view one = view two) left other ↔ left.map view = other.map view := by
  constructor
  · intro alike
    cases alike with
    | fault fault => rfl
    | done relates => exact congrArg Except.ok relates
  · intro same
    cases left with
    | error fault =>
        cases other with
        | error otherFault =>
            obtain rfl : fault = otherFault := Except.error.inj same
            exact .fault fault
        | ok result => cases same
    | ok result =>
        cases other with
        | error otherFault => cases same
        | ok otherResult => exact .done (Except.ok.inj same)

end Alike

namespace Link

/-- A part of what a link knows of its motors and of its counters. A view replaces what it does not
show. -/
structure View where
  motor : MotorState → MotorState
  counters : Counters → Counters

namespace View

/-- What a view shows of a link, with everything around the motors and the counters. -/
def of (view : View) (link : Link) : Link :=
  { link with
    motors := link.motors.map (Option.map view.motor)
    counters := view.counters link.counters }

/-- What a view shows of the result of an operation: the part of the link, and all calls. -/
def result (view : View) (outcome : Link × List Call) : Link × List Call :=
  (view.of outcome.1, outcome.2)

/-- A view that shows the channel of a motor, and in which a write and a start change nothing but
what it shows. -/
structure Faithful (view : View) : Prop where
  channel : ∀ state, (view.motor state).channel = state.channel
  motor : ∀ state, view.motor (view.motor state) = view.motor state
  value : ∀ state value,
    view.motor { view.motor state with value } = view.motor { state with value }
  owesReply : ∀ state started,
    view.motor { view.motor state with owesReply := (view.motor state).owesReply || started } =
      view.motor { state with owesReply := state.owesReply || started }
  counters : ∀ counters, view.counters (view.counters counters) = view.counters counters

variable {view : View} {link left right : Link} {motor : Nat} {state : MotorState} {op : Op}

theorem motor?_of (view : View) (link : Link) (motor : Nat) :
    (view.of link).motor? motor = (link.motor? motor).map view.motor :=
  motor?_of_map view.motor rfl motor

theorem motorCount_of (view : View) (link : Link) : (view.of link).motorCount = link.motorCount := by
  simp [Link.motorCount, of]

/-- Two links look the same if each motor does, the counters do, and what surrounds them is the
same. -/
theorem of_eq_of_motor? (surroundings : left.surroundings = right.surroundings)
    (motorCount : left.motorCount = right.motorCount)
    (motors : ∀ motor, (left.motor? motor).map view.motor = (right.motor? motor).map view.motor)
    (counters : view.counters left.counters = view.counters right.counters) :
    view.of left = view.of right := by
  refine eq_of_motor? surroundings ?_ ?_ counters
  · rw [motorCount_of, motorCount_of, motorCount]
  · intro motor
    rw [motor?_of, motor?_of, motors motor]

theorem map_motor?_of_same (same : view.of left = view.of right) (motor : Nat) :
    (left.motor? motor).map view.motor = (right.motor? motor).map view.motor := by
  rw [← motor?_of, ← motor?_of, same]

namespace Faithful

theorem of_of (faithful : view.Faithful) (link : Link) : view.of (view.of link) = view.of link := by
  refine of_eq_of_motor? rfl (motorCount_of view link) ?_ (faithful.counters _)
  intro motor
  rw [motor?_of, Option.map_map]
  congr 1
  funext state
  exact faithful.motor state

theorem of_staged (faithful : view.Faithful) (link : Link) (target : Nat) (throttle : UInt16)
    (channel : Channel) :
    view.of (link.staged target throttle channel) =
      view.of ((view.of link).staged target throttle channel) := by
  refine of_eq_of_motor? rfl ?_ ?_ (faithful.counters _).symm
  · simp [staged, updateTimer, updateMotor, Link.motorCount, of]
  · intro motor
    have sameValue : (view.of link).valueFor target throttle = link.valueFor target throttle := rfl
    rw [motor?_staged, motor?_staged, motor?_of, sameValue]
    cases link.motor? motor with
    | none => simp
    | some state =>
        split
        · simp [faithful.value]
        · simp [faithful.motor]

theorem of_fire (faithful : view.Faithful) (link : Link) :
    view.of link.fire.1 = view.of (view.of link).fire.1 := by
  refine of_eq_of_motor? rfl ?_ ?_ (faithful.counters _).symm
  · simp [fire, Link.motorCount, of]
  · intro motor
    rw [motor?_fire, motor?_fire, motor?_of]
    cases link.motor? motor with
    | none => rfl
    | some state =>
        have due : (view.of link).isDue (view.motor state).channel = link.isDue state.channel := by
          rw [faithful.channel]
          rfl
        simp only [Option.map_some, due]
        exact congrArg some (faithful.owesReply state _).symm

/-- What a write shows depends on what is in view before it. -/
theorem write (faithful : view.Faithful) (link : Link) (target : Nat) (throttle : UInt16) :
    (link.write target throttle).map view.result =
      ((view.of link).write target throttle).map view.result := by
  cases found : link.motor? target with
  | none =>
      have absent : (view.of link).motor? target = none := by
        rw [motor?_of, found]
        rfl
      rw [write_of_absent found, write_of_absent absent]
      simp [Except.map, result, faithful.of_of]
  | some state =>
      have shown : (view.of link).motor? target = some (view.motor state) := by
        rw [motor?_of, found]
        rfl
      have words : (view.of link).wordsFor target throttle = link.wordsFor target throttle := rfl
      by_cases fits : link.burst = true → state.channel.index.toNat ≤ TimerState.burstCapacity
      · have shownFits : (view.of link).burst = true →
            (view.motor state).channel.index.toNat ≤ TimerState.burstCapacity := by
          rw [faithful.channel]
          exact fits
        rw [write_of_connected found fits, write_of_connected shown shownFits, words,
          faithful.channel]
        simp only [Except.map, result, ← faithful.of_staged]
        rfl
      · have both : link.burst = true ∧ TimerState.burstCapacity < state.channel.index.toNat := by
          simpa using fits
        have shownBurst : (view.of link).burst = true := both.1
        simp [Link.write, found, shown, both, shownBurst, faithful.channel]

/-- What the end of a frame shows depends on what is in view before it. -/
theorem endFrame (faithful : view.Faithful) (link : Link) :
    view.result link.endFrame = view.result (view.of link).endFrame := by
  rcases ticked : link.commands.tick with ⟨released, commands⟩
  have shown : (view.of link).commands.tick = (released, commands) := ticked
  cases released with
  | false =>
      rw [endFrame_of_held ticked, endFrame_of_held shown]
      have held := faithful.of_of { link with commands }
      exact congrArg (·, []) held.symm
  | true =>
      rw [endFrame_of_released ticked, endFrame_of_released shown]
      have fired := faithful.of_fire { link with commands }
      exact congrArg (·, (fire { link with commands }).2) fired

/-- Two links that look alike still do after an operation that stages, and it makes the same calls
on both. -/
theorem staging (faithful : view.Faithful) (same : view.of left = view.of right)
    (stages : (∃ motor throttle, op = .write motor throttle) ∨ op = .endFrame ∨
      ∃ target command, op = .send target command) :
    (left.step op).map view.result = (right.step op).map view.result := by
  rcases stages with ⟨motor, throttle, rfl⟩ | rfl | ⟨target, command, rfl⟩
  · have written := (faithful.write right motor throttle).symm
    exact (faithful.write left motor throttle).trans (same ▸ written)
  · have ended := (faithful.endFrame left).trans (same ▸ (faithful.endFrame right).symm)
    exact congrArg Except.ok ended
  · have sent := congrArg (fun link : Link =>
      { link with commands := (link.commands.enqueue target command).2 }) same
    exact congrArg (fun link => Except.ok (link, [])) sent

/-- The same holds of a run of such operations. -/
theorem run (faithful : view.Faithful) {ops : List Op} (same : view.of left = view.of right)
    (stages : ∀ op ∈ ops, (∃ motor throttle, op = .write motor throttle) ∨ op = .endFrame ∨
      ∃ target command, op = .send target command) :
    (left.run ops).map view.result = (right.run ops).map view.result := by
  induction ops generalizing left right with
  | nil => exact congrArg (fun link => Except.ok (link, [])) same
  | cons op rest ih =>
      rw [List.forall_mem_cons] at stages
      rw [← Alike.iff_map_eq]
      simp only [Link.run]
      apply (Alike.iff_map_eq.mpr (faithful.staging same stages.1)).bind
      intro _ _ first
      apply (Alike.iff_map_eq.mpr (ih (congrArg Prod.fst first) stages.2)).bind
      intro _ _ later
      have sameView := congrArg Prod.fst later
      have sameMade := congrArg Prod.snd first
      have sameMore := congrArg Prod.snd later
      exact .done (Prod.ext sameView (congrArg₂ (· ++ ·) sameMade sameMore))

end Faithful

end View

end Link

end Rotor

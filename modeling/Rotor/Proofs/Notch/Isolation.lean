import Rotor.Proofs.Notch.Lines

/-!
# Axes that do not hear each other

What comes out of a filter on one axis is the same whether or not samples pass on the others
(`Filter.outputsOn_filter`, by induction on the actions). No telemetry moves a delay line, and no
sample moves anything but the delay lines of its own axis (`Filter.MovesOwnLines`).
-/

namespace Rotor.Filter

variable {filter left right : Filter} {signal : Signal} {axis : Nat} {value : Float32}

/-- The one axis of one signal. -/
def only (signal : Signal) (axis : Nat) (other : Signal) (plane : Nat) : Bool :=
  other = signal && plane = axis

/-- Whether an action has to do with one axis of a signal: all but the samples of others have. -/
def Action.concerns (signal : Signal) (axis : Nat) : Action → Bool
  | .apply other plane _ => only signal axis other plane
  | _ => true

/-- What comes out of a list of actions on one axis of a signal. -/
def outputsOn (filter : Filter) (signal : Signal) (axis : Nat) (actions : List Action) :
    List Output :=
  (filter.outputs actions).filter fun output => only signal axis output.signal output.axis

/-- What a sample of an axis does to a filter: it moves delay lines of this axis and of nothing
else. -/
structure MovesOwnLines (filter : Filter) (signal : Signal) (axis : Nat) (next : Filter) :
    Prop where
  lines : ∀ other plane motor harmonic,
    next.line? other plane motor harmonic ≠ filter.line? other plane motor harmonic →
      other = signal ∧ plane = axis ∧ motor < filter.motorCount ∧
        ∃ bank, filter.bank? signal = some bank ∧ harmonic < bank.harmonics
  coefficients : ∀ other plane motor harmonic,
    next.coefficients? other plane motor harmonic = filter.coefficients? other plane motor harmonic
  centers : ∀ other plane motor harmonic,
    next.center? other plane motor harmonic = filter.center? other plane motor harmonic
  speeds : next.speeds = filter.speeds
  smoother : next.smoother = filter.smoother
  cursor : next.cursor = filter.cursor
  build : filter.SameBuild next

section Samples

/-- A sample on an axis that is not there, or of a signal whose bank is off, stays as it is. -/
theorem apply_of_absent (sound : filter.Sound)
    (absent : axisCount ≤ axis ∨ filter.bank? signal = none) (value : Float32) :
    filter.apply signal axis value = (value, filter) := by
  cases found : filter.bank? signal with
  | none => simp only [apply, found]
  | some bank =>
      have beyond : axisCount ≤ axis := by simpa [found] using absent
      have passes (other : Bank) (otherMem : other ∈ filter.banks) :=
        Bank.apply_of_le (sound.banks other otherMem) beyond value
      have banks : (filter.apply signal axis value).2.banks = filter.banks := by
        rw [banks_apply sound]
        conv_rhs => rw [← List.map_id filter.banks]
        apply List.map_congr_left
        intro other otherMem
        rw [passes other otherMem]
        exact ite_self other
      have output : (filter.apply signal axis value).1 = value := by
        simp only [apply, found, passes bank (mem_of_bank? found).1]
      refine Prod.ext output ?_
      simp only [apply, found] at banks ⊢
      rw [banks]

/-- Where a bank has no notch there is no delay line, neither before a sample nor after. -/
theorem line?_apply_of_unstored (sound : filter.Sound) {motor harmonic : Nat}
    (unstored : (filter.center? signal axis motor harmonic).isSome = false)
    (kept : (filter.apply signal axis value).2.center? signal axis motor harmonic =
      filter.center? signal axis motor harmonic) :
    (filter.apply signal axis value).2.line? signal axis motor harmonic =
      filter.line? signal axis motor harmonic := by
  by_cases axisLt : axis < axisCount
  · have before : (filter.line? signal axis motor harmonic).isSome = false :=
      (isSome_line? sound axisLt motor harmonic).trans unstored
    have after : ((filter.apply signal axis value).2.line? signal axis motor harmonic).isSome =
        false := by
      rw [isSome_line? (sound_apply sound signal axis value) axisLt, kept]
      exact unstored
    rw [Option.isSome_eq_false_iff, Option.isNone_iff_eq_none] at before after
    rw [before, after]
  · rw [apply_of_absent sound (.inl (Nat.le_of_not_lt axisLt))]

theorem movesOwnLines_apply (sound : filter.Sound) (signal : Signal) (axis : Nat)
    (value : Float32) : filter.MovesOwnLines signal axis (filter.apply signal axis value).2 := by
  have hidden (keeps : Signal → Nat → Bool) (dropped : keeps signal axis = false) :
      (filter.apply signal axis value).2.keepLines keeps = filter.keepLines keeps :=
    keepLines_apply_of_dropped filter keeps sound dropped value
  have still := hidden (fun _ _ => false) rfl
  have centers (other : Signal) (plane motor harmonic : Nat) :
      (filter.apply signal axis value).2.center? other plane motor harmonic =
        filter.center? other plane motor harmonic := by
    rw [← center?_keepLines _ fun _ _ => false, still, center?_keepLines]
  refine ⟨?_, ?_, centers, speeds_apply filter signal axis value, congrArg (·.smoother) still,
    cursor_apply filter signal axis value, sameBuild_apply sound signal axis value⟩
  · intro other plane motor harmonic moved
    by_cases own : other = signal ∧ plane = axis
    · obtain ⟨rfl, rfl⟩ := own
      have stored : (filter.center? other plane motor harmonic).isSome = true := by
        apply Bool.eq_true_of_not_eq_false
        intro unstored
        exact moved (line?_apply_of_unstored sound unstored (centers ..))
      exact ⟨rfl, rfl, lt_of_center? sound stored⟩
    · exfalso
      apply moved
      let others : Signal → Nat → Bool := fun one level => !only signal axis one level
      have shown : others other plane = true := by
        rw [not_and_or] at own
        simpa [others, only, -not_and] using own
      have dropped : others signal axis = false := by simp [others, only]
      rw [← line?_keepLines _ others shown, hidden others dropped, line?_keepLines _ others shown]
  · intro other plane motor harmonic
    rw [← coefficients?_keepLines _ fun _ _ => false, still, coefficients?_keepLines]

end Samples

section Outputs

theorem keepLines_rebuild (filter : Filter) (keeps : Signal → Nat → Bool)
    (settings : FilterSettings) (motors : MotorSettings) (timing : Timing) :
    (filter.act (.rebuild settings motors timing)).keepLines keeps =
      (filter.keepLines keeps).act (.rebuild settings motors timing) := by
  cases rebuilt : filter.rebuild settings motors timing with
  | ok next =>
      rcases rebuild_eq_ok_iff.mp rebuilt with ⟨checked, micros, loopMicros, rfl⟩
      have shown : (filter.keepLines keeps).rebuild settings motors timing =
          .ok ((ofSettings settings motors timing micros).moveCursor filter.cursor) :=
        rebuild_eq_ok_iff.mpr ⟨checked, micros, loopMicros, rfl⟩
      simp only [act, rebuilt, shown]
      rw [keepLines_moveCursor, keepLines_ofSettings]
  | error fault =>
      have shown : (filter.keepLines keeps).rebuild settings motors timing = .error fault := rebuilt
      simp only [act, rebuilt, shown]

/-- What an axis sees of a filter after an action that has to do with it depends on what it saw
before. -/
theorem keepLines_act (filter : Filter) {action : Action}
    (concerned : action.concerns signal axis = true) :
    (filter.act action).keepLines (only signal axis) =
      (filter.keepLines (only signal axis)).act action := by
  cases action with
  | update telemetry => exact keepLines_update filter _ telemetry
  | apply other plane value =>
      have kept : only signal axis other plane = true := concerned
      have sample := keepLines_apply_of_kept filter (only signal axis) concerned value
      exact (congrArg Prod.snd sample).symm
  | moveCursor cursor => exact keepLines_moveCursor filter _ cursor
  | rebuild settings motors timing => exact keepLines_rebuild filter _ settings motors timing

/-- The samples of other axes are not seen. -/
theorem keepLines_act_of_foreign (sound : filter.Sound) {action : Action}
    (foreign : action.concerns signal axis = false) :
    (filter.act action).keepLines (only signal axis) = filter.keepLines (only signal axis) := by
  cases action with
  | apply other plane value =>
      exact keepLines_apply_of_dropped filter _ sound foreign value
  | update telemetry => cases foreign
  | moveCursor cursor => cases foreign
  | rebuild settings motors timing => cases foreign

/-- What comes out of an action on the axis, as far as the axis sees the filter. -/
theorem output?_keepLines (filter : Filter) {action : Action}
    (concerned : action.concerns signal axis = true) :
    (filter.keepLines (only signal axis)).output? action = filter.output? action := by
  cases action with
  | apply other plane value =>
      have sample := keepLines_apply_of_kept filter (only signal axis) concerned value
      simp only [output?, sample]
  | update telemetry => rfl
  | moveCursor cursor => rfl
  | rebuild settings motors timing => rfl

theorem outputsOn_cons (filter : Filter) (action : Action) (rest : List Action) :
    filter.outputsOn signal axis (action :: rest) =
      ((filter.output? action).toList.filter fun output =>
        only signal axis output.signal output.axis) ++
      (filter.act action).outputsOn signal axis rest := by
  simp only [outputsOn, outputs, List.filter_append]

theorem outputsOn_cons_of_foreign (filter : Filter) {action : Action}
    (foreign : action.concerns signal axis = false) (rest : List Action) :
    filter.outputsOn signal axis (action :: rest) =
      (filter.act action).outputsOn signal axis rest := by
  rw [outputsOn_cons]
  cases action with
  | apply other plane value =>
      have elsewhere : only signal axis other plane = false := foreign
      simp only [output?, Option.toList_some, List.filter_cons, elsewhere, List.filter_nil]
      rfl
  | update telemetry => cases foreign
  | moveCursor cursor => cases foreign
  | rebuild settings motors timing => cases foreign

/-- Two filters that an axis sees as one give it the same samples, though the second misses what
happens on the other axes. -/
theorem outputsOn_filter (sound : left.Sound)
    (same : left.keepLines (only signal axis) = right.keepLines (only signal axis))
    (actions : List Action) :
    left.outputsOn signal axis actions =
      right.outputsOn signal axis (actions.filter (Action.concerns signal axis)) := by
  induction actions generalizing left right with
  | nil => rfl
  | cons action rest ih =>
      cases concerned : action.concerns signal axis with
      | true =>
          have sameOutput : left.output? action = right.output? action := by
            rw [← output?_keepLines left concerned, same, output?_keepLines right concerned]
          have sameNext : (left.act action).keepLines (only signal axis) =
              (right.act action).keepLines (only signal axis) := by
            rw [keepLines_act left concerned, same, keepLines_act right concerned]
          rw [List.filter_cons_of_pos concerned, outputsOn_cons, outputsOn_cons, sameOutput,
            ih (sound_act sound action) sameNext]
      | false =>
          have unseen := keepLines_act_of_foreign sound concerned
          rw [List.filter_cons_of_neg (by simp [concerned]),
            outputsOn_cons_of_foreign left concerned]
          exact ih (sound_act sound action) (unseen.trans same)

end Outputs

/-- What comes out on an axis does not depend on the samples of the other axes and signals, however
they are mixed with telemetry. Telemetry moves no delay line. A sample moves the delay lines of its
own axis and nothing else, and it passes unchanged, and leaves everything, where there is no such
axis or no bank for its signal. -/
theorem axes_isolated {settings : FilterSettings} {motors : MotorSettings} {timing : Timing}
    (built : new settings motors timing = .ok filter) (actions : List Action) :
    (∀ signal axis, filter.outputsOn signal axis actions =
      filter.outputsOn signal axis (actions.filter (Action.concerns signal axis))) ∧
    (∀ telemetry signal axis motor harmonic,
      ((filter.perform actions).update telemetry).line? signal axis motor harmonic =
        (filter.perform actions).line? signal axis motor harmonic) ∧
    ∀ signal axis value,
      (filter.perform actions).MovesOwnLines signal axis
        ((filter.perform actions).apply signal axis value).2 ∧
      (axisCount ≤ axis ∨ (filter.perform actions).bank? signal = none →
        (filter.perform actions).apply signal axis value = (value, filter.perform actions)) := by
  have sound := sound_new built
  have performed := sound_perform sound actions
  refine ⟨?_, ?_, ?_⟩
  · intro signal axis
    exact outputsOn_filter sound rfl actions
  · intro telemetry signal axis motor harmonic
    exact line?_update _ telemetry signal axis motor harmonic
  · intro signal axis value
    refine ⟨movesOwnLines_apply performed signal axis value, ?_⟩
    intro absent
    exact apply_of_absent performed absent value

/-- Roll and pitch samples of the gyro and the D term between two turns of telemetry. -/
theorem axes_isolated_in_flight :
    let flown : List Action := [.apply .gyro 0 0.5, .apply .gyro 1 0.25,
      .update fun _ => some 840, .apply .dterm 0 0.5, .apply .gyro 0 0.75, .apply .gyro 3 0.5]
    ∃ filter, new {} {} {} = .ok filter ∧
      filter.outputsOn .gyro 0 flown = filter.outputsOn .gyro 0
        [.apply .gyro 0 0.5, .update fun _ => some 840, .apply .gyro 0 0.75] ∧
      (filter.perform flown).MovesOwnLines .gyro 1
        ((filter.perform flown).apply .gyro 1 0.5).2 ∧
      (filter.perform flown).apply .gyro 3 0.5 = (0.5, filter.perform flown) := by
  intro flown
  have built : new {} {} {} = .ok ((ofSettings {} {} {} 125).moveCursor .start) := rfl
  have isolated := axes_isolated built flown
  exact ⟨_, built, isolated.1 .gyro 0, (isolated.2.2 .gyro 1 0.5).1,
    (isolated.2.2 .gyro 3 0.5).2 (.inl (Nat.le_refl 3))⟩

end Rotor.Filter

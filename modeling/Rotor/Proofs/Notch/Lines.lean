import Rotor.Proofs.Notch.Tuning

/-!
# Delay lines and who sees them

The notches of one motor and harmonic share their coefficients on all axes, but every notch of a
signal and an axis has a delay line of its own. `Filter.keepLines` clears the delay lines of all
axes but the chosen ones, and shows in this way what a filter is to these axes.

What is shown after an update, a rebuild or a sample of a chosen axis depends on what was shown
before. A sample of another axis is not seen.
-/

namespace Rotor

namespace Bank

variable {bank : Bank} {motorCount : Nat}

/-- The notches of one axis, with their delay lines cleared unless the axis is chosen. -/
def shownRows (kept : Bool) (rows : List (List Biquad)) : List (List Biquad) :=
  if kept then rows else rows.map (List.map Biquad.reset)

/-- The bank with the delay lines cleared on all axes but the chosen ones. -/
def keepLines (bank : Bank) (keeps : Nat → Bool) : Bank :=
  { bank with notches := bank.notches.mapIdx fun axis => shownRows (keeps axis) }

/-- The delay lines of all notches, by axis, motor and harmonic. -/
def lineTable (bank : Bank) : List (List (List DelayLine)) :=
  bank.notches.map (List.map (List.map Biquad.line))

section KeepLines

variable (bank : Bank) (keeps : Nat → Bool)

theorem getElem?_keepLines (axis : Nat) :
    (bank.keepLines keeps).notches[axis]? = (bank.notches[axis]?).map (shownRows (keeps axis)) := by
  simp [keepLines]

/-- What happens to the notches of every axis alike is not hidden, if it goes past delay lines. -/
theorem keepLines_map (change : List (List Biquad) → List (List Biquad))
    (commutes : ∀ kept rows, shownRows kept (change rows) = change (shownRows kept rows)) :
    (bank.notches.map change).mapIdx (fun axis => shownRows (keeps axis)) =
      (bank.keepLines keeps).notches.map change := by
  apply List.ext_getElem?
  intro axis
  rw [List.getElem?_mapIdx, List.getElem?_map, List.getElem?_map, getElem?_keepLines,
    Option.map_map, Option.map_map]
  congr 1
  funext rows
  exact commutes (keeps axis) rows

theorem keepLines_new (signal : Signal) (harmonics : Nat) (lowest quality micros : Float32)
    (motorCount : Nat) :
    (new signal harmonics lowest quality micros motorCount).keepLines keeps =
      new signal harmonics lowest quality micros motorCount := by
  have unseen (kept : Bool) (filter : Biquad) (cleared : filter.reset = filter) :
      shownRows kept (List.replicate motorCount (List.replicate harmonics filter)) =
        List.replicate motorCount (List.replicate harmonics filter) := by
    unfold shownRows
    split
    · rfl
    · simp [cleared]
  simp only [keepLines, new, mk.injEq, true_and, and_true]
  apply List.ext_getElem?
  intro axis
  rw [List.getElem?_mapIdx, List.getElem?_replicate]
  split
  · rw [Option.map_some, unseen _ _ rfl]
  · rfl

theorem keepLines_retune (motor harmonic : Nat) (frequency : Float32) :
    (bank.retune motor harmonic frequency).keepLines keeps =
      (bank.keepLines keeps).retune motor harmonic frequency := by
  have notches : (bank.retune motor harmonic frequency).notches.mapIdx
      (fun axis => shownRows (keeps axis)) =
      ((bank.keepLines keeps).retune motor harmonic frequency).notches := by
    apply keepLines_map
    intro kept rows
    unfold shownRows
    split
    · rfl
    · apply map_modify_of_commutes
      intro row
      apply map_modify_of_commutes
      intro filter
      rfl
  exact congrArg (fun notches => { bank.retune motor harmonic frequency with notches }) notches

/-- A sample of a chosen axis passes the same notches. -/
theorem keepLines_apply_of_kept {axis : Nat} (kept : keeps axis = true) (value : Float32) :
    (bank.keepLines keeps).apply axis value =
      ((bank.apply axis value).1, (bank.apply axis value).2.keepLines keeps) := by
  have shown := getElem?_keepLines bank keeps axis
  cases found : bank.notches[axis]? with
  | none =>
      rw [found, Option.map_none] at shown
      simp only [apply, found, shown]
  | some rows =>
      rw [found, Option.map_some, kept] at shown
      have stored (next : List (List Biquad)) :
          (bank.keepLines keeps).notches.set axis next =
            (bank.notches.set axis next).mapIdx fun other => shownRows (keeps other) := by
        simp [keepLines, List.mapIdx_set, kept, shownRows]
      simp only [apply, found, shown]
      exact congrArg (fun notches => (_, { bank with notches })) (stored _)

/-- A sample of another axis is not seen. -/
theorem keepLines_apply_of_dropped {axis : Nat} (dropped : keeps axis = false) (value : Float32) :
    (bank.apply axis value).2.keepLines keeps = bank.keepLines keeps := by
  cases found : bank.notches[axis]? with
  | none => simp only [apply, found]
  | some rows =>
      have cleared : (through (through Biquad.apply) rows value).2.map (List.map Biquad.reset) =
          rows.map (List.map Biquad.reset) := by
        apply map_through_of_kept
        intro row input
        apply map_through_of_kept
        intro filter sample
        rfl
      rcases List.getElem?_eq_some_iff.mp found with ⟨inTable, rfl⟩
      simp only [apply, found, keepLines, mk.injEq, true_and, and_true]
      apply List.ext_getElem?
      intro other
      rw [List.getElem?_mapIdx, List.getElem?_mapIdx, List.getElem?_set]
      by_cases same : axis = other
      · subst same
        simp [inTable, dropped, shownRows, cleared]
      · simp [same]

theorem notch?_keepLines {axis : Nat} (kept : keeps axis = true) (motor harmonic : Nat) :
    (bank.keepLines keeps).notch? axis motor harmonic = bank.notch? axis motor harmonic := by
  have shown : (bank.keepLines keeps).notches[axis]? = bank.notches[axis]? := by
    rw [getElem?_keepLines, kept]
    cases bank.notches[axis]? <;> rfl
  simp only [notch?, shown]

/-- Clearing delay lines touches no coefficient. -/
theorem coefficientTable_keepLines :
    (bank.keepLines keeps).coefficientTable = bank.coefficientTable := by
  have untouched (kept : Bool) (rows : List (List Biquad)) :
      (shownRows kept rows).map (List.map Biquad.coefficients) =
        rows.map (List.map Biquad.coefficients) := by
    unfold shownRows
    split
    · rfl
    · simp [Biquad.reset]
  apply List.ext_getElem?
  intro axis
  rw [coefficientTable, List.getElem?_map, getElem?_keepLines, Option.map_map, coefficientTable,
    List.getElem?_map]
  congr 1
  funext rows
  exact untouched (keeps axis) rows

/-- Retuning keeps every delay line. -/
theorem lineTable_retune (motor harmonic : Nat) (frequency : Float32) :
    (bank.retune motor harmonic frequency).lineTable = bank.lineTable := by
  simp only [lineTable, retune, List.map_map]
  apply List.map_congr_left
  intro rows _
  apply map_modify_of_kept
  intro row
  apply map_modify_of_kept
  intro filter
  rfl

end KeepLines

theorem line_notch? (bank : Bank) (axis motor harmonic : Nat) :
    (bank.notch? axis motor harmonic).map Biquad.line =
      ((bank.lineTable[axis]?).bind (·[motor]?)).bind (·[harmonic]?) := by
  simp only [notch?, lineTable, List.getElem?_map]
  cases bank.notches[axis]? with
  | none => rfl
  | some rows =>
      simp only [Option.map_some, Option.bind_some, List.getElem?_map, Option.bind_eq_bind]
      cases rows[motor]? with
      | none => rfl
      | some row => simp

/-- On an axis that is there, a bank has a notch for every stored frequency and no other. -/
theorem isSome_notch? (sound : bank.Sound motorCount) {axis : Nat} (axisLt : axis < axisCount)
    (motor harmonic : Nat) :
    (bank.notch? axis motor harmonic).isSome = (bank.center? motor harmonic).isSome := by
  have tuned := congrArg Option.isSome (coefficients_of_sound sound axisLt motor harmonic)
  simpa using tuned

theorem lt_of_center? (sound : bank.Sound motorCount) {motor harmonic : Nat}
    (stored : (bank.center? motor harmonic).isSome = true) :
    motor < motorCount ∧ harmonic < bank.harmonics := by
  cases found : bank.centers[motor]? with
  | none => simp [center?, found] at stored
  | some row =>
      have motorLt : motor < bank.centers.length := (List.getElem?_eq_some_iff.mp found).1
      have harmonicLt : harmonic < row.length := by simpa [center?, found] using stored
      rw [sound.motors] at motorLt
      rw [sound.rows row (List.mem_of_getElem? found)] at harmonicLt
      exact ⟨motorLt, harmonicLt⟩

theorem length_notches (sound : bank.Sound motorCount) : bank.notches.length = axisCount := by
  have lengths := congrArg List.length sound.tuned
  simpa [coefficientTable] using lengths

/-- On an axis that is not there a sample stays as it is. -/
theorem apply_of_le (sound : bank.Sound motorCount) {axis : Nat} (beyond : axisCount ≤ axis)
    (value : Float32) : bank.apply axis value = (value, bank) := by
  have absent : bank.notches[axis]? = none := by
    rw [List.getElem?_eq_none_iff, length_notches sound]
    exact beyond
  simp only [apply, absent]

end Bank

namespace Filter

variable {filter : Filter} {signal : Signal} {axis : Nat}

/-- The filter with the delay lines cleared on all axes of its signals but the chosen ones. -/
def keepLines (filter : Filter) (keeps : Signal → Nat → Bool) : Filter :=
  { filter with banks := filter.banks.map fun bank => bank.keepLines (keeps bank.signal) }

/-- The delay line of the notch of an axis, a motor and a harmonic. -/
def line? (filter : Filter) (signal : Signal) (axis motor harmonic : Nat) : Option DelayLine :=
  (filter.bank? signal).bind fun bank => (bank.notch? axis motor harmonic).map Biquad.line

/-- The delay lines of all banks. -/
def lineTables (filter : Filter) : List (Signal × List (List (List DelayLine))) :=
  filter.banks.map fun bank => (bank.signal, bank.lineTable)

section KeepLines

variable (filter : Filter) (keeps : Signal → Nat → Bool)

theorem sizes_keepLines : (filter.keepLines keeps).sizes = filter.sizes := by
  simp [sizes, keepLines, Bank.keepLines]

theorem bank?_keepLines (signal : Signal) :
    (filter.keepLines keeps).bank? signal =
      (filter.bank? signal).map fun bank => bank.keepLines (keeps signal) := by
  simp only [bank?, keepLines, List.find?_map]
  have sameSearch : (fun bank : Bank => decide (bank.signal = signal)) ∘
      (fun bank : Bank => bank.keepLines (keeps bank.signal)) =
      fun bank : Bank => decide (bank.signal = signal) := rfl
  rw [sameSearch]
  cases found : filter.banks.find? fun bank => bank.signal = signal with
  | none => rfl
  | some bank =>
      have signals : bank.signal = signal := by simpa using List.find?_some found
      rw [Option.map_some, Option.map_some, signals]

theorem keepLines_retuneCell :
    filter.retuneCell.keepLines keeps = (filter.keepLines keeps).retuneCell := by
  have banks : filter.retuneCell.banks.map (fun bank => bank.keepLines (keeps bank.signal)) =
      (filter.keepLines keeps).retuneCell.banks := by
    apply map_modify_of_commutes
    intro bank
    exact Bank.keepLines_retune ..
  exact congrArg (fun banks => { filter.retuneCell with banks }) banks

theorem keepLines_advance : filter.advance.keepLines keeps = (filter.keepLines keeps).advance := by
  simp only [advance, sizes_keepLines]
  rfl

theorem keepLines_retuneNext :
    filter.retuneNext.keepLines keeps = (filter.keepLines keeps).retuneNext :=
  (keepLines_advance filter.retuneCell keeps).trans
    (congrArg advance (keepLines_retuneCell filter keeps))

theorem keepLines_update (telemetry : Nat → Option UInt16) :
    (filter.update telemetry).keepLines keeps = (filter.keepLines keeps).update telemetry := by
  have idle : (filter.keepLines keeps).banks.isEmpty = filter.banks.isEmpty := by
    simp [keepLines]
  have repeated (count : Nat) (start : Filter) :
      (Nat.repeat retuneNext count start).keepLines keeps =
        Nat.repeat retuneNext count (start.keepLines keeps) := by
    induction count with
    | zero => rfl
    | succ count ih => exact (keepLines_retuneNext _ keeps).trans (congrArg retuneNext ih)
  unfold update
  rw [idle]
  have motors : (filter.keepLines keeps).motorCount = filter.motorCount := rfl
  rw [motors]
  split
  · rfl
  · rw [repeated]
    rfl

theorem keepLines_moveCursor (cursor : Cursor) :
    (filter.moveCursor cursor).keepLines keeps = (filter.keepLines keeps).moveCursor cursor := by
  simp only [moveCursor, sizes_keepLines]
  rfl

/-- Nothing is hidden of a filter that has seen no sample. -/
theorem keepLines_ofSettings (settings : FilterSettings) (motors : MotorSettings) (timing : Timing)
    (micros : UInt32) :
    (ofSettings settings motors timing micros).keepLines keeps =
      ofSettings settings motors timing micros := by
  have banks : ∀ bank ∈ banksFor settings motors timing micros,
      bank.keepLines (keeps bank.signal) = bank := by
    intro bank built
    rcases exists_settings_of_mem_banksFor built with ⟨signal, chosen, time, _, _, _, rfl⟩
    exact Bank.keepLines_new ..
  simp only [keepLines, ofSettings, mk.injEq, and_true]
  exact List.map_congr_left banks |>.trans (List.map_id _)

/-- A sample of a chosen axis passes the same notches. -/
theorem keepLines_apply_of_kept (kept : keeps signal axis = true) (value : Float32) :
    (filter.keepLines keeps).apply signal axis value =
      ((filter.apply signal axis value).1, (filter.apply signal axis value).2.keepLines keeps) := by
  have shown := bank?_keepLines filter keeps signal
  cases found : filter.bank? signal with
  | none =>
      rw [found, Option.map_none] at shown
      simp only [apply, found, shown]
  | some bank =>
      rw [found, Option.map_some] at shown
      simp only [apply, found, shown, Bank.keepLines_apply_of_kept bank _ kept]
      refine Prod.ext rfl ?_
      simp only [keepLines, mk.injEq, List.map_map, and_true]
      apply List.map_congr_left
      intro other _
      have signals : (bank.apply axis value).2.signal = signal :=
        (bank.signal_apply axis value).trans (mem_of_bank? found).2
      simp only [Function.comp_apply]
      have otherSignal : (other.keepLines (keeps other.signal)).signal = other.signal := rfl
      rw [otherSignal]
      split
      · rw [signals]
      · rfl

/-- A sample of another axis is not seen. -/
theorem keepLines_apply_of_dropped (sound : filter.Sound) (dropped : keeps signal axis = false)
    (value : Float32) :
    (filter.apply signal axis value).2.keepLines keeps = filter.keepLines keeps := by
  have banks : (filter.apply signal axis value).2.banks.map
      (fun bank => bank.keepLines (keeps bank.signal)) =
      filter.banks.map fun bank => bank.keepLines (keeps bank.signal) := by
    rw [banks_apply sound, List.map_map]
    apply List.map_congr_left
    intro bank _
    simp only [Function.comp_apply]
    split
    · next signals =>
      rw [Bank.signal_apply]
      apply Bank.keepLines_apply_of_dropped
      rw [signals]
      exact dropped
    · rfl
  simp only [keepLines, banks]
  simp only [apply]
  split <;> rfl

theorem line?_keepLines (kept : keeps signal axis = true) (motor harmonic : Nat) :
    (filter.keepLines keeps).line? signal axis motor harmonic =
      filter.line? signal axis motor harmonic := by
  simp only [line?, bank?_keepLines]
  cases filter.bank? signal with
  | none => rfl
  | some bank =>
      simp only [Option.map_some, Option.bind_some]
      rw [Bank.notch?_keepLines bank _ kept]

theorem coefficients?_keepLines (signal : Signal) (axis motor harmonic : Nat) :
    (filter.keepLines keeps).coefficients? signal axis motor harmonic =
      filter.coefficients? signal axis motor harmonic := by
  simp only [coefficients?, bank?_keepLines]
  cases filter.bank? signal with
  | none => rfl
  | some bank =>
      simp only [Option.map_some, Option.bind_some, Bank.coefficients_notch?]
      rw [Bank.coefficientTable_keepLines]

theorem center?_keepLines (signal : Signal) (axis motor harmonic : Nat) :
    (filter.keepLines keeps).center? signal axis motor harmonic =
      filter.center? signal axis motor harmonic := by
  simp only [center?, bank?_keepLines]
  cases filter.bank? signal <;> rfl

end KeepLines

section Lines

theorem lineTables_retuneNext (filter : Filter) :
    filter.retuneNext.lineTables = filter.lineTables := by
  apply map_modify_of_kept
  intro bank
  exact congrArg (bank.signal, ·) (Bank.lineTable_retune ..)

theorem lineTables_update (filter : Filter) (telemetry : Nat → Option UInt16) :
    (filter.update telemetry).lineTables = filter.lineTables := by
  unfold update
  split
  · rfl
  · refine @repeat_induction (filter.smoothed telemetry)
      (fun later => later.lineTables = filter.lineTables) rfl ?_ _
    intro before same
    exact (lineTables_retuneNext before).trans same

theorem line?_eq (filter : Filter) (signal : Signal) (axis motor harmonic : Nat) :
    filter.line? signal axis motor harmonic =
      (filter.lineTables.find? fun entry => entry.1 = signal).bind fun entry =>
        ((entry.2[axis]?).bind (·[motor]?)).bind (·[harmonic]?) := by
  simp only [line?, bank?, lineTables, List.find?_map, Option.bind_map, Function.comp_def,
    Bank.line_notch?]

theorem line?_update (filter : Filter) (telemetry : Nat → Option UInt16) (signal : Signal)
    (axis motor harmonic : Nat) :
    (filter.update telemetry).line? signal axis motor harmonic =
      filter.line? signal axis motor harmonic := by
  rw [line?_eq, line?_eq, lineTables_update]

theorem isSome_line? (sound : filter.Sound) (axisLt : axis < axisCount) (motor harmonic : Nat) :
    (filter.line? signal axis motor harmonic).isSome =
      (filter.center? signal axis motor harmonic).isSome := by
  simp only [line?, center?, axisLt, if_true]
  cases found : filter.bank? signal with
  | none => rfl
  | some bank =>
      have bankSound := sound.banks bank (mem_of_bank? found).1
      simpa using Bank.isSome_notch? bankSound axisLt motor harmonic

theorem lt_of_center? (sound : filter.Sound) {motor harmonic : Nat}
    (stored : (filter.center? signal axis motor harmonic).isSome = true) :
    motor < filter.motorCount ∧
      ∃ bank, filter.bank? signal = some bank ∧ harmonic < bank.harmonics := by
  cases found : filter.bank? signal with
  | none => simp [center?, found] at stored
  | some bank =>
      have bankSound := sound.banks bank (mem_of_bank? found).1
      have inBank : (bank.center? motor harmonic).isSome = true := by
        rw [center?] at stored
        split at stored
        · simpa [found] using stored
        · simp at stored
      rcases Bank.lt_of_center? bankSound inBank with ⟨motorLt, harmonicLt⟩
      exact ⟨motorLt, bank, rfl, harmonicLt⟩

end Lines

end Filter

end Rotor

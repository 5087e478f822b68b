import Rotor.Notch.Bank

/-!
# The tables of a bank

A bank stores the frequency of each notch once for all axes, and its coefficients once for each
axis. `Bank.Sound` says that the two tables agree: the coefficients of every axis are those of the
stored frequencies. A bank is built like this, and no retune and no sample changes it.
-/

namespace Rotor

theorem map_modify_of_commutes {α β : Type} {view : α → β} {change : α → α} {changed : β → β}
    (commutes : ∀ item, view (change item) = changed (view item)) (items : List α) (index : Nat) :
    (items.modify index change).map view = (items.map view).modify index changed := by
  apply List.ext_getElem?
  intro position
  simp only [List.getElem?_map, List.getElem?_modify]
  split <;> cases items[position]? <;> simp [commutes]

theorem map_modify_of_kept {α β : Type} {view : α → β} {change : α → α}
    (kept : ∀ item, view (change item) = view item) (items : List α) (index : Nat) :
    (items.modify index change).map view = items.map view := by
  have unchanged : (items.modify index change).map view = (items.map view).modify index id :=
    map_modify_of_commutes kept items index
  rw [unchanged, List.modify_id]

theorem forall_mem_modify {α : Type} {holds : α → Prop} {change : α → α} {items : List α}
    (before : ∀ item ∈ items, holds item) (kept : ∀ item, holds item → holds (change item))
    (index : Nat) : ∀ item ∈ items.modify index change, holds item := by
  intro item itemMem
  rcases List.mem_iff_getElem?.mp itemMem with ⟨position, found⟩
  rw [List.getElem?_modify] at found
  rcases Option.map_eq_some_iff.mp found with ⟨old, foundOld, rfl⟩
  have oldHolds := before old (List.mem_of_getElem? foundOld)
  split
  · exact kept old oldHolds
  · exact oldHolds

/-- What a stage keeps of itself is kept by a cascade of stages. -/
theorem map_through_of_kept {Stage View : Type} {apply : Stage → Float32 → Float32 × Stage}
    {view : Stage → View} (kept : ∀ stage value, view (apply stage value).2 = view stage)
    (stages : List Stage) (value : Float32) :
    (through apply stages value).2.map view = stages.map view := by
  induction stages generalizing value with
  | nil => rfl
  | cons stage rest ih => simp [through, kept, ih]

namespace Bank

variable {bank : Bank} {motorCount : Nat}

/-- A bank without its tables. -/
def blank (bank : Bank) : Bank :=
  { bank with notches := [], centers := [] }

/-- The coefficients of all notches, by axis, motor and harmonic. -/
def coefficientTable (bank : Bank) : List (List (List Coefficients)) :=
  bank.notches.map (List.map (List.map Biquad.coefficients))

/-- The coefficients that the stored frequencies ask for, by motor and harmonic. -/
def tuning (bank : Bank) : List (List Coefficients) :=
  bank.centers.map (List.map fun center => .notch center bank.micros bank.quality)

/-- A bank that follows some harmonic, with a cell for each motor and harmonic, and with the
coefficients of the stored frequencies on all axes. -/
structure Sound (bank : Bank) (motorCount : Nat) : Prop where
  harmonics_pos : 0 < bank.harmonics
  motors : bank.centers.length = motorCount
  rows : ∀ row ∈ bank.centers, row.length = bank.harmonics
  tuned : bank.coefficientTable = List.replicate axisCount bank.tuning

theorem sound_new (signal : Signal) {harmonics : Nat} (positive : 0 < harmonics)
    (lowest quality micros : Float32) (motorCount : Nat) :
    (new signal harmonics lowest quality micros motorCount).Sound motorCount where
  harmonics_pos := positive
  motors := by simp [new]
  rows := by
    intro row rowMem
    rw [List.eq_of_mem_replicate rowMem]
    simp [new]
  tuned := by simp [coefficientTable, tuning, new, Biquad.notch]

section Retune

variable (bank : Bank) (motor harmonic : Nat) (frequency : Float32)

@[simp]
theorem blank_retune : (bank.retune motor harmonic frequency).blank = bank.blank := rfl

/-- The change that a retune makes to a table of coefficients. -/
def retunedRow (table : List (List Coefficients)) : List (List Coefficients) :=
  table.modify motor fun row =>
    row.modify harmonic fun _ => .notch frequency bank.micros bank.quality

theorem coefficientTable_retune :
    (bank.retune motor harmonic frequency).coefficientTable =
      bank.coefficientTable.map (bank.retunedRow motor harmonic frequency) := by
  simp only [coefficientTable, retune, List.map_map]
  apply List.map_congr_left
  intro axis _
  apply map_modify_of_commutes
  intro row
  apply map_modify_of_commutes
  intro filter
  rfl

theorem tuning_retune :
    (bank.retune motor harmonic frequency).tuning =
      bank.retunedRow motor harmonic frequency bank.tuning := by
  simp only [tuning, retune, retunedRow]
  apply map_modify_of_commutes
  intro row
  apply List.ext_getElem?
  intro position
  simp only [List.getElem?_map, List.getElem?_set, List.getElem?_modify]
  by_cases here : harmonic = position
  · subst here
    by_cases inRow : harmonic < row.length <;> simp [inRow]
  · simp [here]

end Retune

theorem sound_retune (sound : bank.Sound motorCount) (motor harmonic : Nat) (frequency : Float32) :
    (bank.retune motor harmonic frequency).Sound motorCount where
  harmonics_pos := sound.harmonics_pos
  motors := by simpa [retune] using sound.motors
  rows := by
    apply forall_mem_modify sound.rows
    intro row length
    simpa using length
  tuned := by
    -- Both tables change in the same row, and the copies of that row change alike.
    rw [coefficientTable_retune, tuning_retune, sound.tuned, List.map_replicate]

section Apply

variable (bank : Bank) (axis : Nat) (value : Float32)

@[simp]
theorem blank_apply : (bank.apply axis value).2.blank = bank.blank := by
  simp only [apply]
  split <;> rfl

@[simp]
theorem signal_apply : (bank.apply axis value).2.signal = bank.signal :=
  (congrArg Bank.signal (bank.blank_apply axis value) :)

@[simp]
theorem harmonics_apply : (bank.apply axis value).2.harmonics = bank.harmonics :=
  (congrArg Bank.harmonics (bank.blank_apply axis value) :)

@[simp]
theorem lowest_apply : (bank.apply axis value).2.lowest = bank.lowest :=
  (congrArg Bank.lowest (bank.blank_apply axis value) :)

@[simp]
theorem parked_apply : (bank.apply axis value).2.parked = bank.parked :=
  (congrArg Bank.parked (bank.blank_apply axis value) :)

@[simp]
theorem centers_apply : (bank.apply axis value).2.centers = bank.centers := by
  simp only [apply]
  split <;> rfl

@[simp]
theorem tuning_apply : (bank.apply axis value).2.tuning = bank.tuning := by
  simp only [apply]
  split <;> rfl

/-- A sample moves delay lines and no coefficient. -/
@[simp]
theorem coefficientTable_apply :
    (bank.apply axis value).2.coefficientTable = bank.coefficientTable := by
  simp only [apply]
  split
  · rfl
  · next rows found =>
    have kept : (through (through Biquad.apply) rows value).2.map (List.map Biquad.coefficients) =
        rows.map (List.map Biquad.coefficients) := by
      apply map_through_of_kept
      intro row input
      apply map_through_of_kept
      intro filter sample
      rfl
    rcases List.getElem?_eq_some_iff.mp found with ⟨inTable, rfl⟩
    simp only [coefficientTable, List.map_set, kept]
    apply List.ext_getElem?
    intro position
    by_cases here : axis = position
    · subst here
      simp [inTable]
    · simp [here]

end Apply

theorem sound_apply (sound : bank.Sound motorCount) (axis : Nat) (value : Float32) :
    (bank.apply axis value).2.Sound motorCount where
  harmonics_pos := by simpa using sound.harmonics_pos
  motors := by simpa using sound.motors
  rows := by simpa using sound.rows
  tuned := by simpa using sound.tuned

section Cells

theorem exists_center (sound : bank.Sound motorCount) {motor harmonic : Nat}
    (motorLt : motor < motorCount) (harmonicLt : harmonic < bank.harmonics) :
    ∃ center, bank.center? motor harmonic = some center := by
  rw [← sound.motors] at motorLt
  have rowLength := sound.rows bank.centers[motor] (List.getElem_mem motorLt)
  rw [← rowLength] at harmonicLt
  exact ⟨bank.centers[motor][harmonic], by simp [center?, motorLt, harmonicLt]⟩

theorem coefficients_notch? (bank : Bank) (axis motor harmonic : Nat) :
    (bank.notch? axis motor harmonic).map Biquad.coefficients =
      ((bank.coefficientTable[axis]?).bind (·[motor]?)).bind (·[harmonic]?) := by
  simp only [notch?, coefficientTable, List.getElem?_map]
  cases bank.notches[axis]? with
  | none => rfl
  | some rows =>
      simp only [Option.map_some, Option.bind_some, List.getElem?_map, Option.bind_eq_bind]
      cases rows[motor]? with
      | none => rfl
      | some row => simp

/-- A notch has the coefficients of its stored frequency, on every axis. -/
theorem coefficients_of_sound (sound : bank.Sound motorCount) {axis : Nat}
    (axisLt : axis < axisCount) (motor harmonic : Nat) :
    (bank.notch? axis motor harmonic).map Biquad.coefficients =
      (bank.center? motor harmonic).map fun center => .notch center bank.micros bank.quality := by
  rw [coefficients_notch?, sound.tuned, List.getElem?_replicate, if_pos axisLt]
  simp only [tuning, center?, Option.bind_some, List.getElem?_map, Option.bind_eq_bind]
  cases bank.centers[motor]? with
  | none => rfl
  | some row => simp

end Cells

end Bank

end Rotor

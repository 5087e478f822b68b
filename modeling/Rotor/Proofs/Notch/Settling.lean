import Rotor.Proofs.Notch.Coherence
import Rotor.Proofs.Notch.Lines
import Rotor.Proofs.Notch.Sweep

/-!
# How the notches settle

As long as no telemetry comes in, the smoothed speeds stand still. One sweep over the cells then
looks up the speed of every motor, and a second one puts every notch where this speed wants it,
wherever the first has begun and whatever it has found. A filter for which both is done is
`Filter.Settled`, and a retune of it moves nothing but the cursor.
-/

namespace Rotor

theorem modify_of_fixed {α : Type} {items : List α} {index : Nat} {change : α → α}
    (fixed : ∀ item, items[index]? = some item → change item = item) :
    items.modify index change = items := by
  apply List.ext_getElem?
  intro position
  rw [List.getElem?_modify]
  by_cases here : index = position
  · subst here
    cases found : items[index]? with
    | none => rfl
    | some item => simp [fixed item found]
  · simp [here]

/-- Retuning a cell to where it is changes nothing: the coefficients are those that it has. -/
theorem Bank.retune_of_tuned {bank : Bank} {motorCount motor harmonic : Nat} {frequency : Float32}
    (sound : bank.Sound motorCount) (tuned : bank.center? motor harmonic = some frequency) :
    bank.retune motor harmonic frequency = bank := by
  have notches : (bank.retune motor harmonic frequency).notches = bank.notches := by
    conv_rhs => rw [← List.map_id bank.notches]
    apply List.map_congr_left
    intro rows rowsMem
    rcases List.getElem?_of_mem rowsMem with ⟨axis, rowsFound⟩
    have axisLt : axis < axisCount := by
      rw [← length_notches sound]
      exact (List.getElem?_eq_some_iff.mp rowsFound).1
    apply modify_of_fixed
    intro row rowFound
    apply modify_of_fixed
    intro filter filterFound
    have coefficients := coefficients_of_sound sound axisLt motor harmonic
    rw [tuned] at coefficients
    simp only [notch?, rowsFound, rowFound, filterFound, Option.bind_eq_bind, Option.bind_some,
      Option.map_some, Option.some.injEq] at coefficients
    rw [← coefficients]
    rfl
  have centers : (bank.retune motor harmonic frequency).centers = bank.centers := by
    apply modify_of_fixed
    intro row rowFound
    simp only [center?, rowFound, Option.bind_eq_bind, Option.bind_some] at tuned
    rcases List.getElem?_eq_some_iff.mp tuned with ⟨inRow, rfl⟩
    exact List.set_getElem_self inRow
  calc bank.retune motor harmonic frequency
    _ = { bank with
          notches := (bank.retune motor harmonic frequency).notches
          centers := (bank.retune motor harmonic frequency).centers } := rfl
    _ = bank := by rw [notches, centers]

theorem Smoother.updateAll_of_silent {smoother : Smoother} {motorCount : Nat}
    {telemetry : Nat → Option UInt16} (silent : ∀ motor < motorCount, telemetry motor = none) :
    smoother.updateAll motorCount telemetry = smoother := by
  calc smoother.updateAll motorCount telemetry
    _ = (List.range motorCount).foldl (fun kept _ => kept) smoother := by
        apply List.foldl_ext
        intro kept motor motorMem
        rw [silent motor (List.mem_range.mp motorMem)]
        rfl
    _ = smoother := List.foldl_fixed _

namespace Filter

variable {filter : Filter}

/-- Every motor is followed at its smoothed speed, and every cell is where this speed puts it. -/
structure Settled (filter : Filter) : Prop where
  speeds : ∀ motor < filter.motorCount, filter.speed motor = filter.smoother.hertz motor
  centers : ∀ cell : Cursor, cell.Within filter.motorCount filter.sizes →
    filter.centerAt cell = filter.targetAt cell

section Rest

theorem retuneCell_of_settled (running : filter.Running) (settled : filter.Settled) :
    filter.retuneCell = filter := by
  have banks : filter.retuneCell.banks = filter.banks := by
    apply modify_of_fixed
    intro bank found
    have there := settled.centers filter.cursor (within_cursor running)
    rw [centerAt, targetAt, found, Option.bind_some, Option.map_some] at there
    exact Bank.retune_of_tuned (running.banks bank (List.mem_of_getElem? found)) there
  exact congrArg (fun banks => { filter with banks }) banks

/-- A retune of a settled filter moves the cursor and changes nothing. -/
theorem retuneNext_of_settled (running : filter.Running) (settled : filter.Settled) :
    filter.retuneNext =
      { filter with cursor := filter.cursor.next filter.motorCount filter.sizes } := by
  have next := Cursor.within_next (sizes_pos running.toSound) (within_cursor running)
  have lookedUp : filter.speeds.set (filter.cursor.next filter.motorCount filter.sizes).motor
      (filter.smoother.hertz (filter.cursor.next filter.motorCount filter.sizes).motor) =
        filter.speeds := by
    have stored := settled.speeds _ next.motor_lt
    have inTable : (filter.cursor.next filter.motorCount filter.sizes).motor <
        filter.speeds.length := by
      rw [running.speeds]
      exact Nat.lt_of_lt_of_le next.motor_lt running.motors_le
    rw [speed, List.getD_eq_getElem _ _ inTable] at stored
    rw [← stored]
    exact List.set_getElem_self inTable
  rw [retuneNext, retuneCell_of_settled running settled, advance, lookedUp, ite_self]

theorem settled_withCursor (settled : filter.Settled) (cursor : Cursor) :
    ({ filter with cursor } : Filter).Settled :=
  ⟨settled.speeds, settled.centers⟩

theorem repeat_of_settled (running : filter.Running) (settled : filter.Settled) (count : Nat) :
    ∃ cursor, Nat.repeat retuneNext count filter = { filter with cursor } := by
  induction count with
  | zero => exact ⟨filter.cursor, rfl⟩
  | succ count ih =>
      rcases ih with ⟨cursor, before⟩
      have beforeRunning := running_repeat running count
      rw [before] at beforeRunning
      refine ⟨cursor.next filter.motorCount filter.sizes, ?_⟩
      calc Nat.repeat retuneNext (count + 1) filter
        _ = retuneNext { filter with cursor } := congrArg retuneNext before
        _ = { filter with cursor := cursor.next filter.motorCount filter.sizes } :=
            retuneNext_of_settled beforeRunning (settled_withCursor settled cursor)

end Rest

section Sweeps

theorem smoother_repeat (filter : Filter) (count : Nat) :
    (Nat.repeat retuneNext count filter).smoother = filter.smoother :=
  @repeat_induction filter (fun later => later.smoother = filter.smoother) rfl
    (fun _ same => same) count

theorem repeat_add (filter : Filter) (first more : Nat) :
    Nat.repeat retuneNext (first + more) filter =
      Nat.repeat retuneNext more (Nat.repeat retuneNext first filter) := by
  induction more with
  | zero => rfl
  | succ more ih => exact congrArg retuneNext ih

/-- What holds after some retune and is kept by the later ones holds from then on. -/
theorem repeat_of_le {holds : Filter → Prop} {first last : Nat} (inOrder : first ≤ last)
    (start : holds (Nat.repeat retuneNext first filter))
    (kept : ∀ count, first ≤ count → holds (Nat.repeat retuneNext count filter) →
      holds (Nat.repeat retuneNext (count + 1) filter)) :
    holds (Nat.repeat retuneNext last filter) := by
  induction last, inOrder using Nat.le_induction with
  | base => exact start
  | succ count le ih => exact kept count le ih

theorem exists_round_index {cells value : Nat} (inTable : value < cells) (start : Nat) :
    ∃ index < cells, (start + index) % cells = value := by
  have once := count_round inTable start
  have met : value ∈ (List.range cells).map fun index => (start + index) % cells :=
    List.count_pos_iff.mp (by omega)
  simpa using met

/-- The first sweep looks up the speed of every motor, and it stays the one that was looked up. -/
theorem speed_repeat (running : filter.Running) {count : Nat} (swept : filter.cellCount ≤ count)
    {motor : Nat} (motorLt : motor < filter.motorCount) :
    (Nat.repeat retuneNext count filter).speed motor = filter.smoother.hertz motor := by
  have cells : 0 < Cursor.cellsIn filter.sizes :=
    Nat.lt_of_le_of_lt (Nat.zero_le _) (Cursor.offset_lt (within_cursor running))
  have inTable : motor * Cursor.cellsIn filter.sizes < filter.cellCount :=
    Nat.mul_lt_mul_of_pos_right motorLt cells
  -- a motor is looked up when the cursor comes to its first cell, not when it leaves it, so the
  -- round begins one place after the cursor
  rcases exists_round_index inTable (filter.position + 1) with ⟨index, indexLt, number⟩
  have looksUp : (Nat.repeat retuneNext index filter).refreshes motor := by
    have same := sameBuild_repeat filter index
    apply (refreshes_iff (running_repeat running index) (same.motorCount.symm ▸ motorLt)).mpr
    rw [same.cellCount, same.sizes, position_repeat running, Nat.mod_add_mod, ← number]
    congr 1
    omega
  refine @repeat_of_le filter (fun later => later.speed motor = filter.smoother.hertz motor)
    (index + 1) count (Nat.le_trans indexLt swept) ?_ ?_
  · refine (speed_retuneNext (running_repeat running index) motor).trans ?_
    rw [if_pos looksUp, smoother_repeat]
  · intro later _ lookedUp
    refine (speed_retuneNext (running_repeat running later) motor).trans ?_
    rw [smoother_repeat, lookedUp, ite_self]

theorem center_retuneNext (running : filter.Running) {cell : Cursor}
    (sameSpeed : filter.retuneNext.speed cell.motor = filter.speed cell.motor)
    (there : cell = filter.cursor ∨ filter.centerAt cell = filter.targetAt cell) :
    filter.retuneNext.centerAt cell = filter.retuneNext.targetAt cell := by
  rw [targetAt_retuneNext sameSpeed, centerAt_retuneNext running]
  split
  · rfl
  · next other => exact there.resolve_left other

/-- The second sweep puts every cell where the speed of its motor wants it. -/
theorem center_repeat (running : filter.Running) {count : Nat}
    (swept : 2 * filter.cellCount ≤ count) {cell : Cursor}
    (within : cell.Within filter.motorCount filter.sizes) :
    (Nat.repeat retuneNext count filter).centerAt cell =
      (Nat.repeat retuneNext count filter).targetAt cell := by
  have sameSpeed (later : Nat) (after : filter.cellCount ≤ later) :
      (Nat.repeat retuneNext (later + 1) filter).speed cell.motor =
        (Nat.repeat retuneNext later filter).speed cell.motor := by
    rw [speed_repeat running (Nat.le_succ_of_le after) within.motor_lt,
      speed_repeat running after within.motor_lt]
  have inTable : cell.position filter.sizes < filter.cellCount := Cursor.position_lt within
  rcases exists_round_index inTable filter.position with ⟨index, indexLt, number⟩
  have reached : (Nat.repeat retuneNext (filter.cellCount + index) filter).cursor = cell := by
    have same := sameBuild_repeat filter (filter.cellCount + index)
    have hereWithin := within_cursor (running_repeat running (filter.cellCount + index))
    have position := position_repeat running (filter.cellCount + index)
    rw [same.motorCount, same.sizes] at hereWithin
    rw [Filter.position, same.sizes] at position
    apply Cursor.position_injective hereWithin within
    rw [position, Nat.add_left_comm, Nat.add_mod_left]
    exact number
  -- tuned in the second sweep, when its speed is final; the first may come to it too early
  refine @repeat_of_le filter (fun later => later.centerAt cell = later.targetAt cell)
    (filter.cellCount + index + 1) count (by omega) ?_ ?_
  · exact center_retuneNext (running_repeat running _) (sameSpeed _ (by omega)) (.inl reached.symm)
  · intro later after there
    exact center_retuneNext (running_repeat running _) (sameSpeed _ (by omega)) (.inr there)

/-- Two sweeps settle a filter, wherever they begin. -/
theorem settled_repeat (running : filter.Running) {count : Nat}
    (swept : 2 * filter.cellCount ≤ count) : (Nat.repeat retuneNext count filter).Settled := by
  have same := sameBuild_repeat filter count
  refine ⟨?_, ?_⟩
  · intro motor motorLt
    rw [same.motorCount] at motorLt
    rw [smoother_repeat]
    exact speed_repeat running (by omega) motorLt
  · intro cell within
    rw [same.motorCount, same.sizes] at within
    exact center_repeat running swept within

end Sweeps

section Silence

variable {telemetry : Nat → Option UInt16} {telemetries : List (Nat → Option UInt16)}

/-- No motor of a filter has a reply in any of the telemetries. -/
def Silent (filter : Filter) (telemetries : List (Nat → Option UInt16)) : Prop :=
  ∀ telemetry ∈ telemetries, ∀ motor < filter.motorCount, telemetry motor = none

theorem update_of_silent (running : filter.Running)
    (silent : ∀ motor < filter.motorCount, telemetry motor = none) :
    filter.update telemetry = Nat.repeat retuneNext filter.retunesPerTick filter := by
  rw [update_of_running running, smoothed, Smoother.updateAll_of_silent silent]

theorem perform_of_silent (running : filter.Running) (silent : filter.Silent telemetries) :
    filter.perform (telemetries.map .update) =
      Nat.repeat retuneNext (telemetries.length * filter.retunesPerTick) filter := by
  induction telemetries generalizing filter with
  | nil => simp [perform, Nat.repeat]
  | cons telemetry rest ih =>
      rw [Silent, List.forall_mem_cons] at silent
      have same := sameBuild_update running.toSound telemetry
      have restSilent : (filter.update telemetry).Silent rest := by
        rw [Silent, same.motorCount]
        exact silent.2
      have length : (telemetry :: rest).length * filter.retunesPerTick =
          filter.retunesPerTick + rest.length * filter.retunesPerTick := by
        rw [List.length_cons, Nat.succ_mul, Nat.add_comm]
      calc filter.perform ((telemetry :: rest).map .update)
        _ = (filter.update telemetry).perform (rest.map .update) := rfl
        _ = Nat.repeat retuneNext (rest.length * filter.retunesPerTick)
              (filter.update telemetry) := by
            rw [ih (running_update running telemetry) restSilent, same.retunesPerTick]
        _ = Nat.repeat retuneNext ((telemetry :: rest).length * filter.retunesPerTick) filter := by
            rw [length, repeat_add, update_of_silent running silent.1]

theorem running_of_cellCount_pos (sound : filter.Sound) (cells : 0 < filter.cellCount) :
    filter.Running := by
  rcases idle_or_running sound with (noBank | noMotor) | running
  · simp [cellCount, sizes, noBank, Cursor.cellsIn] at cells
  · simp [cellCount, noMotor] at cells
  · exact running

/-- A cell of a settled filter is reported where the smoothed speed of its motor puts it. -/
theorem center?_of_settled (running : filter.Running) (settled : filter.Settled) {motor : Nat}
    (motorLt : motor < filter.motorCount) {bank : Bank} (bankMem : bank ∈ filter.banks)
    {harmonic : Nat} (harmonicLt : harmonic < bank.harmonics) {axis : Nat}
    (axisLt : axis < axisCount) :
    filter.center? bank.signal axis motor harmonic = some (Notch.place
      ((UInt32.ofNat (harmonic + 1)).toFloat32 * filter.smoother.hertz motor)
      bank.lowest bank.parked) := by
  rcases List.getElem?_of_mem bankMem with ⟨index, found⟩
  have within : Cursor.Within { motor, harmonic, bank := index } filter.motorCount
      filter.sizes := by
    rcases List.getElem?_eq_some_iff.mp found with ⟨indexLt, rfl⟩
    have sizeLt : index < filter.sizes.length := by simpa [sizes] using indexLt
    refine ⟨motorLt, sizeLt, ?_⟩
    rw [List.getD_eq_getElem _ _ sizeLt]
    simpa [sizes] using harmonicLt
  have there := settled.centers _ within
  rw [centerAt, targetAt, found, Option.bind_some, Option.map_some, targetIn,
    settled.speeds motor motorLt] at there
  simp only [center?, axisLt, if_true, bank?_of_mem running.toSound bankMem]
  exact there

/-- From whatever was done to a filter and wherever its cursor is, updates without telemetry that
make two sweeps settle it: every motor is followed at its smoothed speed, which has not changed, and
every notch is where this speed puts it. Further such updates move the cursor and change nothing. -/
theorem table_settles {settings : FilterSettings} {motors : MotorSettings} {timing : Timing}
    (built : new settings motors timing = .ok filter) (actions : List Action)
    (cells : 0 < (filter.perform actions).cellCount)
    (silent : (filter.perform actions).Silent telemetries)
    (sweeps : 2 * (filter.perform actions).cellCount ≤
      telemetries.length * (filter.perform actions).retunesPerTick) :
    let start := filter.perform actions
    let last := start.perform (telemetries.map .update)
    start.SameBuild last ∧ last.smoother = start.smoother ∧
    (∀ motor < start.motorCount, last.speed motor = start.smoother.hertz motor ∧
      ∀ bank ∈ last.banks, ∀ harmonic < bank.harmonics, ∀ axis < axisCount,
        last.center? bank.signal axis motor harmonic = some (Notch.place
          ((UInt32.ofNat (harmonic + 1)).toFloat32 * start.smoother.hertz motor)
          bank.lowest bank.parked)) ∧
    ∀ more, start.Silent more → ∃ cursor, last.perform (more.map .update) = { last with cursor } := by
  intro start last
  have running : start.Running :=
    running_of_cellCount_pos (sound_perform (sound_new built) actions) cells
  have retuned : last = Nat.repeat retuneNext (telemetries.length * start.retunesPerTick) start :=
    perform_of_silent running silent
  have lastRunning : last.Running := retuned ▸ running_repeat running _
  have same : start.SameBuild last := retuned ▸ sameBuild_repeat start _
  have smoother : last.smoother = start.smoother := retuned ▸ smoother_repeat start _
  have settled : last.Settled := retuned ▸ settled_repeat running sweeps
  refine ⟨same, smoother, ?_, ?_⟩
  · intro motor motorLt
    rw [← same.motorCount] at motorLt
    rw [← smoother]
    refine ⟨settled.speeds motor motorLt, ?_⟩
    intro bank bankMem harmonic harmonicLt axis axisLt
    exact center?_of_settled lastRunning settled motorLt bankMem harmonicLt axisLt
  · intro more moreSilent
    have lastSilent : last.Silent more := by
      rw [Silent, same.motorCount]
      exact moreSilent
    rw [perform_of_silent lastRunning lastSilent]
    exact repeat_of_settled lastRunning settled _

/-- Thirty-two retunes over the sixteen cells, from the middle of motor 2 on and with speeds that
were not looked up since the telemetry came in, and one more update. -/
theorem table_settles_from_motor_two :
    let actions : List Action := [.update fun motor => if motor = 0 then none else some 840,
      .moveCursor { motor := 2, harmonic := 1, bank := 0 }]
    let telemetries : List (Nat → Option UInt16) := List.replicate 16 fun _ => none
    ∃ filter last cursor, new {} {} {} = .ok filter ∧
      last = (filter.perform actions).perform (telemetries.map .update) ∧
      last.speed 3 = (filter.perform actions).smoother.hertz 3 ∧
      (∀ bank ∈ last.banks, ∀ harmonic < bank.harmonics, ∀ axis < axisCount,
        last.center? bank.signal axis 3 harmonic = some (Notch.place
          ((UInt32.ofNat (harmonic + 1)).toFloat32 * (filter.perform actions).smoother.hertz 3)
          bank.lowest bank.parked)) ∧
      last.perform [.update fun _ => none] = { last with cursor } := by
  intro actions telemetries
  let filter := (ofSettings {} {} {} 125).moveCursor .start
  have built : new {} {} {} = .ok filter := rfl
  have cellCount : (filter.perform actions).cellCount = 16 := by decide +kernel
  have perTick : (filter.perform actions).retunesPerTick = 2 := by decide +kernel
  have motors : (filter.perform actions).motorCount = 4 := by decide +kernel
  have quiet (count : Nat) : (filter.perform actions).Silent (List.replicate count fun _ => none) := by
    intro telemetry telemetryMem motor _
    rw [List.eq_of_mem_replicate telemetryMem]
  rcases table_settles built actions (by omega) (quiet 16)
    (by rw [cellCount, perTick, List.length_replicate]) with ⟨_, _, there, still⟩
  rcases still [fun _ => none] (quiet 1) with ⟨cursor, moved⟩
  rcases there 3 (by omega) with ⟨speed, centers⟩
  exact ⟨filter, _, cursor, built, rfl, speed, centers, moved⟩

end Silence

end Filter

end Rotor

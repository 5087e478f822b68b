import Mathlib.Data.List.Range
import Rotor.Proofs.Notch.Tuning

/-!
# The round of the retunes

An update takes the telemetry in and then retunes one cell after the other, so what it makes of a
filter is what the last of its retunes leaves (`Filter.retuning_update`). The retunes of several
updates are listed one after the other (`Filter.retunesIn`), and the updates lead through this list
from the first filter to the last one (`Filter.updating_perform`).

The retunes of a running filter go round its cells in their order. How many of them fall into one
turn of the control loop makes no difference: the one with number `n` goes to the cell whose number
is `n` more than that of the first, modulo the number of cells. Every stretch as long as the table
therefore retunes every cell once and looks up the speed of every motor once.
-/

namespace Rotor.Filter

variable {filter : Filter} {telemetries : List (Nat → Option UInt16)}

/-- The number of the cell that is retuned next. -/
def position (filter : Filter) : Nat :=
  filter.cursor.position filter.sizes

/-- The number of cells in the table. -/
def cellCount (filter : Filter) : Nat :=
  filter.motorCount * Cursor.cellsIn filter.sizes

/-- The filter before each single retune of an update, in their order. -/
def retunesOf (filter : Filter) (telemetry : Nat → Option UInt16) : List Filter :=
  if filter.banks.isEmpty ∨ filter.motorCount = 0 then
    []
  else
    (List.range filter.retunesPerTick).map fun done =>
      Nat.repeat retuneNext done (filter.smoothed telemetry)

/-- The filter before each single retune of a list of updates, in their order. -/
def retunesIn (filter : Filter) : List (Nat → Option UInt16) → List Filter
  | [] => []
  | telemetry :: rest => filter.retunesOf telemetry ++ (filter.update telemetry).retunesIn rest

/-- The filter that an update begins to retune. It has taken the telemetry in, unless there is nothing
to retune. -/
def informed (filter : Filter) (telemetry : Nat → Option UInt16) : Filter :=
  if filter.banks.isEmpty ∨ filter.motorCount = 0 then filter else filter.smoothed telemetry

/-- Retunes lead from a filter to another one. Listed is the filter before each of them. -/
inductive Retuning : Filter → List Filter → Filter → Prop
  | done (filter : Filter) : Retuning filter [] filter
  | next {filter last : Filter} {later : List Filter}
      (rest : Retuning filter.retuneNext later last) : Retuning filter (filter :: later) last

/-- Updates lead from a filter to another one, each by its own retunes. Listed is the filter before
each retune of any of them. -/
inductive Updating : Filter → List (Nat → Option UInt16) → List Filter → Filter → Prop
  | done (filter : Filter) : Updating filter [] [] filter
  | next {filter last : Filter} {telemetry : Nat → Option UInt16}
      {telemetries : List (Nat → Option UInt16)} {retuned later : List Filter}
      (first : Retuning (filter.informed telemetry) retuned (filter.update telemetry))
      (rest : Updating (filter.update telemetry) telemetries later last) :
      Updating filter (telemetry :: telemetries) (retuned ++ later) last

theorem SameBuild.cellCount {next : Filter} (same : filter.SameBuild next) :
    next.cellCount = filter.cellCount := by
  simp only [Filter.cellCount, same.motorCount, same.sizes]

section Performed

theorem Retuning.concat {first last : Filter} {retuned : List Filter}
    (retuning : Retuning first retuned last) :
    Retuning first (retuned ++ [last]) last.retuneNext := by
  induction retuning with
  | done filter => exact .next (.done filter.retuneNext)
  | next rest ih => exact .next ih

theorem retuning_repeat (filter : Filter) (count : Nat) :
    Retuning filter ((List.range count).map fun done => Nat.repeat retuneNext done filter)
      (Nat.repeat retuneNext count filter) := by
  induction count with
  | zero => exact .done filter
  | succ count ih =>
      rw [List.range_succ, List.map_append]
      exact ih.concat

/-- The retunes of an update lead from the filter that has taken the telemetry in to the result of
the update, with all its banks and speeds. -/
theorem retuning_update (filter : Filter) (telemetry : Nat → Option UInt16) :
    Retuning (filter.informed telemetry) (filter.retunesOf telemetry)
      (filter.update telemetry) := by
  unfold informed retunesOf update
  split
  · exact .done filter
  · exact retuning_repeat (filter.smoothed telemetry) filter.retunesPerTick

theorem updating_perform (filter : Filter) (telemetries : List (Nat → Option UInt16)) :
    Updating filter telemetries (filter.retunesIn telemetries)
      (filter.perform (telemetries.map .update)) := by
  induction telemetries generalizing filter with
  | nil => exact .done filter
  | cons telemetry rest ih => exact .next (retuning_update filter telemetry) (ih _)

end Performed

section Positions

theorem position_lt (running : filter.Running) : filter.position < filter.cellCount :=
  Cursor.position_lt (within_cursor running)

theorem position_retuneNext (running : filter.Running) :
    filter.retuneNext.position = (filter.position + 1) % filter.cellCount := by
  rw [position, cursor_retuneNext, (sameBuild_retuneNext filter).sizes]
  exact Cursor.position_next (sizes_pos running.toSound) (within_cursor running)

theorem position_repeat (running : filter.Running) (count : Nat) :
    (Nat.repeat retuneNext count filter).position =
      (filter.position + count) % filter.cellCount := by
  induction count with
  | zero => exact (Nat.mod_eq_of_lt (position_lt running)).symm
  | succ count ih =>
      have step := position_retuneNext (running_repeat running count)
      rw [ih, (sameBuild_repeat filter count).cellCount, Nat.mod_add_mod, Nat.add_assoc] at step
      exact step

/-- The next retune looks up the speed of a motor just when the first cell of the motor is next. -/
theorem refreshes_iff (running : filter.Running) {motor : Nat}
    (motorLt : motor < filter.motorCount) :
    filter.refreshes motor ↔
      (filter.position + 1) % filter.cellCount = motor * Cursor.cellsIn filter.sizes :=
  Cursor.comesTo_iff (sizes_pos running.toSound) (within_cursor running) motorLt

theorem position_update (running : filter.Running) (telemetry : Nat → Option UInt16) :
    (filter.update telemetry).position =
      (filter.position + filter.retunesPerTick) % filter.cellCount := by
  rw [update_of_running running]
  exact position_repeat (running_smoothed running telemetry) _

theorem retunesOf_of_running (running : filter.Running) (telemetry : Nat → Option UInt16) :
    filter.retunesOf telemetry = (List.range filter.retunesPerTick).map fun done =>
      Nat.repeat retuneNext done (filter.smoothed telemetry) := by
  have someBank := running.some_bank
  have someMotor : filter.motorCount ≠ 0 := by
    have positive := running.some_motor
    omega
  simp [retunesOf, someBank, someMotor]

/-- The retunes of a list of updates go round the cells, whatever share of them an update has. -/
theorem positions_retunesIn (running : filter.Running) (telemetries : List (Nat → Option UInt16)) :
    (filter.retunesIn telemetries).map position =
      (List.range (telemetries.length * filter.retunesPerTick)).map fun index =>
        (filter.position + index) % filter.cellCount := by
  induction telemetries generalizing filter with
  | nil => simp [retunesIn]
  | cons telemetry rest ih =>
      have same := sameBuild_update running.toSound telemetry
      have first : (filter.retunesOf telemetry).map position =
          (List.range filter.retunesPerTick).map fun index =>
            (filter.position + index) % filter.cellCount := by
        rw [retunesOf_of_running running, List.map_map]
        apply List.map_congr_left
        intro index _
        exact position_repeat (running_smoothed running telemetry) index
      have later := ih (running_update running telemetry)
      rw [same.retunesPerTick, same.cellCount, position_update running] at later
      -- The updates that follow begin where this one has left the cursor, so their numbers continue
      -- the range of this one.
      have length : (telemetry :: rest).length * filter.retunesPerTick =
          filter.retunesPerTick + rest.length * filter.retunesPerTick := by
        rw [List.length_cons, Nat.succ_mul, Nat.add_comm]
      rw [retunesIn, List.map_append, first, later, length, List.range_add, List.map_append,
        List.map_map]
      congr 1
      apply List.map_congr_left
      intro index _
      simp only [Function.comp_apply, Nat.mod_add_mod, Nat.add_assoc]

theorem running_of_mem_retunesIn (running : filter.Running) {before : Filter}
    (retuned : before ∈ filter.retunesIn telemetries) :
    before.Running ∧ filter.SameBuild before := by
  induction telemetries generalizing filter with
  | nil => simp [retunesIn] at retuned
  | cons telemetry rest ih =>
      rcases List.mem_append.mp retuned with now | later
      · rw [retunesOf_of_running running, List.mem_map] at now
        rcases now with ⟨done, _, rfl⟩
        have same := sameBuild_smoothed filter telemetry
        exact ⟨running_repeat (running_smoothed running telemetry) done,
          same.trans (sameBuild_repeat _ done)⟩
      · rcases ih (running_update running telemetry) later with ⟨beforeRunning, same⟩
        exact ⟨beforeRunning, (sameBuild_update running.toSound telemetry).trans same⟩

theorem perform_updates (running : filter.Running) (telemetries : List (Nat → Option UInt16)) :
    (filter.perform (telemetries.map .update)).Running ∧
      filter.SameBuild (filter.perform (telemetries.map .update)) ∧
      (filter.perform (telemetries.map .update)).position =
        (filter.position + telemetries.length * filter.retunesPerTick) % filter.cellCount := by
  induction telemetries generalizing filter with
  | nil =>
      refine ⟨running, SameBuild.refl filter, ?_⟩
      simpa [perform] using (Nat.mod_eq_of_lt (position_lt running)).symm
  | cons telemetry rest ih =>
      have same := sameBuild_update running.toSound telemetry
      rcases ih (running_update running telemetry) with ⟨lastRunning, lastSame, lastPosition⟩
      refine ⟨lastRunning, same.trans lastSame, lastPosition.trans ?_⟩
      rw [same.retunesPerTick, same.cellCount, position_update running, Nat.mod_add_mod,
        List.length_cons, Nat.succ_mul, Nat.add_comm (_ * _), Nat.add_assoc]

end Positions

section Sweeps

/-- As many consecutive retunes as there are cells, after some that are skipped. -/
def sweep (filter : Filter) (telemetries : List (Nat → Option UInt16)) (skipped : Nat) :
    List Filter :=
  ((filter.retunesIn telemetries).drop skipped).take filter.cellCount

theorem mem_of_mem_sweep {skipped : Nat} {before : Filter}
    (retuned : before ∈ filter.sweep telemetries skipped) :
    before ∈ filter.retunesIn telemetries :=
  List.mem_of_mem_drop (List.mem_of_mem_take retuned)

theorem positions_sweep (running : filter.Running) {skipped : Nat}
    (complete : skipped + filter.cellCount ≤ (filter.retunesIn telemetries).length) :
    (filter.sweep telemetries skipped).map position =
      (List.range filter.cellCount).map fun index =>
        (filter.position + skipped + index) % filter.cellCount := by
  have positions := positions_retunesIn running telemetries
  have lengths := congrArg List.length positions
  rw [List.length_map, List.length_map, List.length_range] at lengths
  rw [sweep, List.map_take, List.map_drop, positions]
  apply List.ext_getElem
  · simp only [List.length_take, List.length_drop, List.length_map, List.length_range]
    omega
  · intro index _ _
    simp [Nat.add_assoc]

/-- A sweep comes once to a retune that a cell number marks. -/
theorem countP_sweep (running : filter.Running) {skipped : Nat}
    (complete : skipped + filter.cellCount ≤ (filter.retunesIn telemetries).length)
    {marked : Filter → Prop} [DecidablePred marked] (shift : Nat) {value : Nat}
    (inTable : value < filter.cellCount)
    (marks : ∀ before : Filter, before.Running → filter.SameBuild before →
      (marked before ↔ (before.position + shift) % filter.cellCount = value)) :
    (filter.sweep telemetries skipped).countP marked = 1 := by
  have numbers : ((filter.sweep telemetries skipped).map position).map
      (fun number => (number + shift) % filter.cellCount) =
        (List.range filter.cellCount).map fun index =>
          (filter.position + skipped + shift + index) % filter.cellCount := by
    rw [positions_sweep running complete, List.map_map]
    apply List.map_congr_left
    intro index _
    simp only [Function.comp_apply, Nat.mod_add_mod]
    congr 1
    omega
  calc (filter.sweep telemetries skipped).countP marked
    _ = (((filter.sweep telemetries skipped).map position).map
          fun number => (number + shift) % filter.cellCount).count value := by
        rw [List.count, List.countP_map, List.countP_map]
        apply List.countP_congr
        intro before retuned
        rcases running_of_mem_retunesIn running (mem_of_mem_sweep retuned) with
          ⟨beforeRunning, same⟩
        simpa using marks before beforeRunning same
    _ = 1 := by
        rw [numbers]
        exact count_round inTable _

theorem countP_sweep_cell (running : filter.Running) {skipped : Nat}
    (complete : skipped + filter.cellCount ≤ (filter.retunesIn telemetries).length) {cell : Cursor}
    (within : cell.Within filter.motorCount filter.sizes) :
    (filter.sweep telemetries skipped).countP (fun before => before.cursor = cell) = 1 := by
  apply countP_sweep running complete 0 (Cursor.position_lt within)
  intro before beforeRunning same
  have beforeWithin := within_cursor beforeRunning
  have inTable := position_lt beforeRunning
  rw [same.motorCount, same.sizes] at beforeWithin
  rw [same.cellCount] at inTable
  rw [Nat.add_zero, Nat.mod_eq_of_lt inTable, position, same.sizes]
  exact ⟨congrArg (Cursor.position · filter.sizes), Cursor.position_injective beforeWithin within⟩

theorem countP_sweep_refreshes (running : filter.Running) {skipped : Nat}
    (complete : skipped + filter.cellCount ≤ (filter.retunesIn telemetries).length) {motor : Nat}
    (motorLt : motor < filter.motorCount) :
    (filter.sweep telemetries skipped).countP (fun before => before.refreshes motor) = 1 := by
  have cells : 0 < Cursor.cellsIn filter.sizes :=
    Nat.lt_of_le_of_lt (Nat.zero_le _) (Cursor.offset_lt (within_cursor running))
  apply countP_sweep running complete 1 (Nat.mul_lt_mul_of_pos_right motorLt cells)
  intro before beforeRunning same
  have looksUp := refreshes_iff beforeRunning (same.motorCount.symm ▸ motorLt)
  rwa [same.cellCount, same.sizes] at looksUp

end Sweeps

/-- From wherever the cursor is, the retunes of any updates go round the cells in their order. They
are all that the updates do once each has taken its telemetry in, and each retunes the one cell of
the cursor; every stretch of as many retunes as there are cells retunes each cell once and looks up
the speed of each motor once; and the updates leave the cursor as many cells further as they made
retunes. -/
theorem retunes_go_round {settings : FilterSettings} {motors : MotorSettings} {timing : Timing}
    (built : new settings motors timing = .ok filter) (actions : List Action)
    (someBank : (filter.perform actions).banks ≠ [])
    (someMotor : 0 < (filter.perform actions).motorCount)
    (telemetries : List (Nat → Option UInt16)) :
    let start := filter.perform actions
    let last := start.perform (telemetries.map .update)
    let made := telemetries.length * start.retunesPerTick
    start.Updating telemetries (start.retunesIn telemetries) last ∧
    (∀ before ∈ start.retunesIn telemetries, before.RetunesOneCell) ∧
    (start.retunesIn telemetries).map position =
      (List.range made).map (fun index => (start.position + index) % start.cellCount) ∧
    (∀ skipped, skipped + start.cellCount ≤ made →
      (∀ cell : Cursor, cell.Within start.motorCount start.sizes →
        (start.sweep telemetries skipped).countP (fun before => before.cursor = cell) = 1) ∧
      ∀ motor < start.motorCount,
        (start.sweep telemetries skipped).countP (fun before => before.refreshes motor) = 1) ∧
    last.cursor.Within start.motorCount start.sizes ∧
    last.position = (start.position + made) % start.cellCount := by
  intro start last made
  have sound : start.Sound := sound_perform (sound_new built) actions
  have running : start.Running := ⟨sound, someBank, someMotor⟩
  have positions := positions_retunesIn running telemetries
  have length : (start.retunesIn telemetries).length = made := by
    simpa using congrArg List.length positions
  rcases perform_updates running telemetries with ⟨lastRunning, lastSame, lastPosition⟩
  have lastWithin := within_cursor lastRunning
  rw [lastSame.motorCount, lastSame.sizes] at lastWithin
  refine ⟨updating_perform start telemetries, ?_, positions, ?_, lastWithin, lastPosition⟩
  · intro before retuned
    exact retunesOneCell (running_of_mem_retunesIn running retuned).1
  · intro skipped complete
    rw [← length] at complete
    constructor
    · intro cell within
      exact countP_sweep_cell running complete within
    · intro motor motorLt
      exact countP_sweep_refreshes running complete motorLt

/-- Nine updates of two retunes each, from the second harmonic of motor 2 on: sixteen cells, and the
sweep that begins inside the first update. In the end this cell is no longer where it was, and the
notches of motor 2 follow a speed that they did not know before. -/
theorem retunes_go_round_from_motor_two :
    let actions : List Action := [.moveCursor { motor := 2, harmonic := 1, bank := 0 }]
    let telemetries : List (Nat → Option UInt16) := List.replicate 9 fun _ => some 840
    let cell : Cursor := { motor := 2, harmonic := 1, bank := 0 }
    ∃ filter start last, new {} {} {} = .ok filter ∧ filter.perform actions = start ∧
      start.perform (telemetries.map .update) = last ∧ start.banks ≠ [] ∧ 0 < start.motorCount ∧
      start.Updating telemetries (start.retunesIn telemetries) last ∧
      (start.retunesIn telemetries).map position =
        (List.range 18).map (fun index => (9 + index) % 16) ∧
      (start.sweep telemetries 1).countP (fun before => before.cursor = cell) = 1 ∧
      (start.sweep telemetries 1).countP (fun before => before.refreshes 0) = 1 ∧
      last.position = 11 ∧ last.centerAt cell ≠ start.centerAt cell ∧
      last.speed 2 ≠ start.speed 2 := by
  intro actions telemetries cell
  let filter := (ofSettings {} {} {} 125).moveCursor .start
  have built : new {} {} {} = .ok filter := rfl
  have someBank : (filter.perform actions).banks ≠ [] := by
    simp [filter, actions, perform, act, moveCursor, ofSettings, banksFor, bankFor,
      BankSettings.isEnabled]
  have someMotor : 0 < (filter.perform actions).motorCount := by decide
  have made : telemetries.length * (filter.perform actions).retunesPerTick = 18 := by
    decide +kernel
  have cells : (filter.perform actions).cellCount = 16 := by decide +kernel
  have first : (filter.perform actions).position = 9 := by decide +kernel
  rcases retunes_go_round built actions someBank someMotor telemetries with
    ⟨updating, _, positions, sweeps, _, lastPosition⟩
  rw [made, cells, first] at positions
  rw [made, cells, first] at lastPosition
  rw [made, cells] at sweeps
  rcases sweeps 1 (by decide) with ⟨onceTuned, onceLookedUp⟩
  have within : cell.Within (filter.perform actions).motorCount (filter.perform actions).sizes :=
    ⟨by decide +kernel, by decide +kernel, by decide +kernel⟩
  refine ⟨filter, _, _, built, rfl, rfl, someBank, someMotor, updating, positions,
    onceTuned cell within, onceLookedUp 0 someMotor, lastPosition, ?_, ?_⟩
  · decide +kernel
  · decide +kernel

end Rotor.Filter

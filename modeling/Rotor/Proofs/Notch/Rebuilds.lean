import Rotor.Proofs.Link.Connected
import Rotor.Proofs.Notch.Runs

/-!
# Rebuilding a filter

Other settings are refused as a whole, for the first of their checks that fails, or they make a
filter that has seen nothing. `Filter.rebuild_starts_afresh` says that of what was there before a
rebuild only the cursor is left, and that a refused one leaves everything.
-/

namespace Rotor.Filter

variable {filter fresh : Filter} {settings : FilterSettings} {motors : MotorSettings}
  {timing : Timing} {cause : SettingsError}

/-- The cause for which a check refuses, none where it accepts. -/
def refusal? : Except SettingsError Unit → Option SettingsError
  | .error cause => some cause
  | .ok _ => none

/-- The first cause for which settings are refused: those of the filter are looked at first, then
those of the motors, then the timing. -/
def firstRefusal? (settings : FilterSettings) (motors : MotorSettings) (timing : Timing) :
    Option SettingsError :=
  [settings.validate, motors.validate, timing.validate].findSome? refusal?

theorem checkSettings_eq_error_iff : checkSettings settings motors timing = .error cause ↔
    firstRefusal? settings motors timing = some cause := by
  simp only [checkSettings, firstRefusal?, bind, Except.bind]
  cases settings.validate with
  | error first => simp [List.findSome?, refusal?]
  | ok _ =>
      cases motors.validate with
      | error second => simp [List.findSome?, refusal?]
      | ok _ => cases timing.validate <;> simp [List.findSome?, refusal?]

theorem checkSettings_eq_ok_iff : checkSettings settings motors timing = .ok () ↔
    firstRefusal? settings motors timing = none := by
  have refused (cause : SettingsError) : checkSettings settings motors timing = .error cause ↔
      firstRefusal? settings motors timing = some cause := checkSettings_eq_error_iff
  cases checked : checkSettings settings motors timing with
  | error cause => simp [(refused cause).mp checked]
  | ok _ =>
      cases first : firstRefusal? settings motors timing with
      | none => simp
      | some cause => simp [(refused cause).mpr first] at checked

/-- Settings that pass all checks make a filter, if a turn of the control loop fits its word. -/
theorem exists_new (fits : timing.Fits) (accepted : firstRefusal? settings motors timing = none) :
    ∃ fresh, new settings motors timing = .ok fresh := by
  rcases Link.loopMicros_of_fits fits with ⟨micros, loopMicros⟩
  exact ⟨_, new_eq_ok_iff.mpr ⟨checkSettings_eq_ok_iff.mpr accepted, micros, loopMicros, rfl⟩⟩

/-- A rebuild gives the new filter with its cursor put where the old one was. -/
theorem rebuild_of_new (built : new settings motors timing = .ok fresh) (filter : Filter) :
    filter.rebuild settings motors timing = .ok (fresh.moveCursor filter.cursor) := by
  rcases new_eq_ok_iff.mp built with ⟨checked, micros, loopMicros, rfl⟩
  exact rebuild_eq_ok_iff.mpr ⟨checked, micros, loopMicros, rfl⟩

theorem rebuild_of_refused (refused : firstRefusal? settings motors timing = some cause)
    (filter : Filter) : filter.rebuild settings motors timing = .error (.settings cause) := by
  rw [rebuild, checkSettings_eq_error_iff.mpr refused]
  rfl

theorem act_rebuild_of_refused (refused : firstRefusal? settings motors timing = some cause)
    (filter : Filter) : filter.act (.rebuild settings motors timing) = filter := by
  simp only [act, rebuild_of_refused refused]

theorem act_rebuild_of_new (built : new settings motors timing = .ok fresh) (filter : Filter) :
    filter.act (.rebuild settings motors timing) = fresh.moveCursor filter.cursor := by
  simp only [act, rebuild_of_new built]

/-- A rebuild is refused for the first check that fails, and then nothing has changed. Otherwise the
filter is in all its parts the one that is built from the new settings, with the cursor put where it
was. Two filters with one cursor are the same from then on, whatever they were and have been
through: the same comes out of them. -/
theorem rebuild_starts_afresh (fits : timing.Fits) (settings : FilterSettings)
    (motors : MotorSettings) :
    (∀ cause, firstRefusal? settings motors timing = some cause → ∀ filter : Filter,
      filter.rebuild settings motors timing = .error (.settings cause) ∧
        filter.act (.rebuild settings motors timing) = filter) ∧
    (firstRefusal? settings motors timing = none →
      ∃ fresh, new settings motors timing = .ok fresh ∧ ∀ filter : Filter,
        filter.rebuild settings motors timing = .ok (fresh.moveCursor filter.cursor) ∧
        filter.act (.rebuild settings motors timing) = fresh.moveCursor filter.cursor ∧
        ∀ other : Filter, other.cursor = filter.cursor → ∀ later,
          (other.act (.rebuild settings motors timing)).outputs later =
            (filter.act (.rebuild settings motors timing)).outputs later) := by
  refine ⟨?_, ?_⟩
  · intro cause refused filter
    exact ⟨rebuild_of_refused refused filter, act_rebuild_of_refused refused filter⟩
  · intro accepted
    rcases exists_new fits accepted with ⟨fresh, built⟩
    refine ⟨fresh, built, ?_⟩
    intro filter
    refine ⟨rebuild_of_new built filter, act_rebuild_of_new built filter, ?_⟩
    intro other sameCursor later
    rw [act_rebuild_of_new built other, act_rebuild_of_new built filter, sameCursor]

/-- A filter in flight is rebuilt for a slower loop without D-term notches, and is refused a fourth
harmonic before anyone looks at the ninth motor. -/
theorem rebuild_starts_afresh_in_flight :
    let flown : List Action := [.update fun _ => some 840, .apply .gyro 1 0.5,
      .moveCursor { motor := 2, harmonic := 2, bank := 0 }]
    let slower : FilterSettings := { dterm := { harmonics := 0, minHertz := 100, quality := 500 } }
    let busier : FilterSettings := { gyro := { harmonics := 4, minHertz := 100, quality := 500 } }
    ∃ old fresh, new {} {} {} = .ok old ∧ new slower {} { samplesPerLoop := 8 } = .ok fresh ∧
      (old.perform flown).act (.rebuild slower {} { samplesPerLoop := 8 }) =
        fresh.moveCursor (old.perform flown).cursor ∧
      (old.perform flown).rebuild busier { motorCount := 9 } { samplesPerLoop := 8 } =
        .error (.settings (.tooManyHarmonics 4)) ∧
      (old.perform flown).act (.rebuild busier { motorCount := 9 } { samplesPerLoop := 8 }) =
        old.perform flown := by
  intro flown slower busier
  have fits : Timing.Fits { samplesPerLoop := 8 } := by decide
  have accepted : firstRefusal? slower {} { samplesPerLoop := 8 } = none := by decide
  have refused : firstRefusal? busier { motorCount := 9 } { samplesPerLoop := 8 } =
    some (.tooManyHarmonics 4) := by decide
  have built : new {} {} {} = .ok ((ofSettings {} {} {} 125).moveCursor .start) := rfl
  rcases (rebuild_starts_afresh fits slower {}).2 accepted with ⟨fresh, builtFresh, rebuilds⟩
  have kept := (rebuild_starts_afresh fits busier { motorCount := 9 }).1 _ refused
  exact ⟨_, fresh, built, builtFresh, (rebuilds _).2.1, kept _⟩

end Rotor.Filter

import Rotor.Proofs.Notch.Rebuilds

/-!
# What settings come to

Settings are refused by their own checks, or the time that a turn of the control loop takes is past
the word that holds it. No check looks for the latter: `Filter.outcome_of_settings` says for all
settings which of the two keeps a filter or a link from being built, and
`Filter.accepted_time_overflows` is a time that every check accepts.

A fresh filter computes the time before its settings are looked at, a rebuild after it.
-/

namespace Rotor

variable {settings : FilterSettings} {motors : MotorSettings} {timing : Timing}
  {cause : SettingsError} {fault : Fault}

theorem Timing.loopMicros_eq_error_iff :
    timing.loopMicros = .error fault ↔ ¬timing.Fits ∧ fault = .productOverflow := by
  simp only [loopMicros, Fits, Nat.not_lt, ← Fault.checkedMul_eq_error_iff]
  cases Fault.checkedMul UInt32.size timing.gyroMicros.toNat timing.samplesPerLoop.toNat with
  | error other => simp [Except.map]
  | ok product => simp [Except.map]

theorem Timing.loopMicros_of_overflow (overflow : ¬timing.Fits) :
    timing.loopMicros = .error .productOverflow :=
  loopMicros_eq_error_iff.mpr ⟨overflow, rfl⟩

namespace Link

theorem connect_of_overflow (overflow : ¬timing.Fits)
    (answers : Nat → Except ClaimError Channel) :
    connect motors timing answers = .error .productOverflow := by
  rw [connect, Timing.loopMicros_of_overflow overflow]
  rfl

theorem exists_connect_iff {answers : Nat → Except ClaimError Channel} :
    (∃ link init, connect motors timing answers = .ok (link, init)) ↔ timing.Fits := by
  constructor
  · rintro ⟨link, init, connected⟩
    by_contra overflow
    simp [connect_of_overflow overflow] at connected
  · intro fits
    rcases connect_of_fits fits motors answers with ⟨micros, connected⟩
    exact ⟨_, _, connected⟩

theorem connect_eq_error_iff {answers : Nat → Except ClaimError Channel} :
    connect motors timing answers = .error fault ↔ ¬timing.Fits ∧ fault = .productOverflow := by
  by_cases fits : timing.Fits
  · rcases connect_of_fits fits motors answers with ⟨micros, connected⟩
    simp [connected, fits]
  · simp [connect_of_overflow fits, fits, eq_comm]

end Link

namespace Filter

variable {filter : Filter}

theorem firstRefusal?_eq_none_iff : firstRefusal? settings motors timing = none ↔
    settings.validate = .ok () ∧ motors.validate = .ok () ∧ timing.validate = .ok () := by
  have accepts (result : Except SettingsError Unit) :
      refusal? result = none ↔ result = .ok () := by
    cases result <;> simp [refusal?]
  simp [firstRefusal?, accepts]

section New

theorem new_of_overflow (overflow : ¬timing.Fits) :
    new settings motors timing = .error (.fault .productOverflow) := by
  rw [new, Timing.loopMicros_of_overflow overflow]
  rfl

theorem new_of_refused (fits : timing.Fits)
    (refused : firstRefusal? settings motors timing = some cause) :
    new settings motors timing = .error (.settings cause) := by
  rcases Link.loopMicros_of_fits fits with ⟨micros, loopMicros⟩
  rw [new, loopMicros, checkSettings_eq_error_iff.mpr refused]
  rfl

/-- What becomes of a fresh filter: the word of the time is looked at first. -/
theorem new_cases (settings : FilterSettings) (motors : MotorSettings) (timing : Timing) :
    (¬timing.Fits ∧ new settings motors timing = .error (.fault .productOverflow)) ∨
    (∃ cause, timing.Fits ∧ firstRefusal? settings motors timing = some cause ∧
      new settings motors timing = .error (.settings cause)) ∨
    ∃ fresh, timing.Fits ∧ firstRefusal? settings motors timing = none ∧
      new settings motors timing = .ok fresh := by
  by_cases fits : timing.Fits
  · cases first : firstRefusal? settings motors timing with
    | some cause => exact .inr (.inl ⟨cause, fits, rfl, new_of_refused fits first⟩)
    | none =>
        rcases exists_new fits first with ⟨fresh, built⟩
        exact .inr (.inr ⟨fresh, fits, rfl, built⟩)
  · exact .inl ⟨fits, new_of_overflow fits⟩

end New

section Rebuild

theorem rebuild_of_overflow (accepted : firstRefusal? settings motors timing = none)
    (overflow : ¬timing.Fits) (filter : Filter) :
    filter.rebuild settings motors timing = .error (.fault .productOverflow) := by
  rw [rebuild, checkSettings_eq_ok_iff.mpr accepted, Timing.loopMicros_of_overflow overflow]
  rfl

/-- What becomes of a rebuild: the checks come first. -/
theorem rebuild_cases (filter : Filter) (settings : FilterSettings) (motors : MotorSettings)
    (timing : Timing) :
    (∃ cause, firstRefusal? settings motors timing = some cause ∧
      filter.rebuild settings motors timing = .error (.settings cause)) ∨
    (firstRefusal? settings motors timing = none ∧ ¬timing.Fits ∧
      filter.rebuild settings motors timing = .error (.fault .productOverflow)) ∨
    ∃ next, firstRefusal? settings motors timing = none ∧ timing.Fits ∧
      filter.rebuild settings motors timing = .ok next := by
  cases first : firstRefusal? settings motors timing with
  | some cause => exact .inl ⟨cause, rfl, rebuild_of_refused first filter⟩
  | none =>
      by_cases fits : timing.Fits
      · rcases exists_new fits first with ⟨fresh, built⟩
        exact .inr (.inr ⟨_, rfl, fits, rebuild_of_new built filter⟩)
      · exact .inr (.inl ⟨rfl, fits, rebuild_of_overflow first fits filter⟩)

end Rebuild

/-- A fresh filter and a rebuild of any filter are there just when all three checks accept and the
time of a turn fits its word, and a link just when the time fits. A time that does not fit ends a
link and a fresh filter whatever the checks say, and a rebuild that they accept; otherwise the first
check that refuses is reported. -/
theorem outcome_of_settings (settings : FilterSettings) (motors : MotorSettings)
    (timing : Timing) :
    let accepted := settings.validate = .ok () ∧ motors.validate = .ok () ∧
      timing.validate = .ok ()
    (((∃ filter, new settings motors timing = .ok filter) ↔ accepted ∧ timing.Fits) ∧
      (∀ cause, new settings motors timing = .error (.settings cause) ↔
        firstRefusal? settings motors timing = some cause ∧ timing.Fits) ∧
      ∀ fault, new settings motors timing = .error (.fault fault) ↔
        ¬timing.Fits ∧ fault = .productOverflow) ∧
    (∀ filter : Filter,
      ((∃ next, filter.rebuild settings motors timing = .ok next) ↔ accepted ∧ timing.Fits) ∧
      (∀ cause, filter.rebuild settings motors timing = .error (.settings cause) ↔
        firstRefusal? settings motors timing = some cause) ∧
      ∀ fault, filter.rebuild settings motors timing = .error (.fault fault) ↔
        accepted ∧ ¬timing.Fits ∧ fault = .productOverflow) ∧
    ∀ answers : Nat → Except ClaimError Channel,
      ((∃ link init, Link.connect motors timing answers = .ok (link, init)) ↔ timing.Fits) ∧
      ∀ fault, Link.connect motors timing answers = .error fault ↔
        ¬timing.Fits ∧ fault = .productOverflow := by
  intro accepted
  have passes : firstRefusal? settings motors timing = none ↔ accepted := firstRefusal?_eq_none_iff
  refine ⟨?_, ?_, ?_⟩
  · rw [← passes]
    rcases new_cases settings motors timing with
      ⟨overflow, failed⟩ | ⟨first, fits, refused, failed⟩ | ⟨fresh, fits, passed, built⟩
    · simp [failed, overflow, eq_comm]
    · simp [failed, fits, refused]
    · simp [built, fits, passed]
  · intro filter
    rw [← passes]
    rcases rebuild_cases filter settings motors timing with
      ⟨first, refused, failed⟩ | ⟨passed, overflow, failed⟩ | ⟨next, passed, fits, rebuilt⟩
    · simp [failed, refused]
    · simp [failed, passed, overflow, eq_comm]
    · simp [rebuilt, passed, fits]
  · intro answers
    exact ⟨Link.exists_connect_iff, fun _ => Link.connect_eq_error_iff⟩

/-- All checks accept gyro samples the longest time apart and two of them for each turn, but no
filter and no link can be built for them. With nine motors, which the checks refuse, a fresh filter
ends in the product too, where a rebuild reports the motors. -/
theorem accepted_time_overflows :
    let timing : Timing := { gyroMicros := 4294967295, samplesPerLoop := 2 }
    (FilterSettings.validate {} = .ok () ∧ MotorSettings.validate {} = .ok () ∧
      timing.validate = .ok ()) ∧
    new {} {} timing = .error (.fault .productOverflow) ∧
    (∃ filter, new {} {} {} = .ok filter ∧
      filter.rebuild {} {} timing = .error (.fault .productOverflow) ∧
      filter.rebuild {} { motorCount := 9 } timing = .error (.settings (.tooManyMotors 9))) ∧
    (∀ answers, Link.connect {} timing answers = .error .productOverflow) ∧
    new {} { motorCount := 9 } timing = .error (.fault .productOverflow) := by
  intro timing
  have overflow : ¬timing.Fits := by decide
  have accepted : firstRefusal? {} {} timing = none := by decide
  have refused : firstRefusal? {} { motorCount := 9 } timing = some (.tooManyMotors 9) := by decide
  have built : new {} {} {} = .ok ((ofSettings {} {} {} 125).moveCursor .start) := rfl
  refine ⟨firstRefusal?_eq_none_iff.mp accepted, new_of_overflow overflow, ?_, ?_,
    new_of_overflow overflow⟩
  · exact ⟨_, built, rebuild_of_overflow accepted overflow _, rebuild_of_refused refused _⟩
  · exact Link.connect_of_overflow overflow

end Filter

end Rotor

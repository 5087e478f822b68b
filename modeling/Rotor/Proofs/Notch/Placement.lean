import Rotor.Notch.Placement
import Rotor.Proofs.Single.Bounds

/-!
# Where a notch can be put

A notch is put at the frequency at which it is parked, at the lowest frequency of its bank, or at
the frequency that it follows where that lies between the two (`Notch.place_cases`). So it is never
above the parking frequency, and putting it once more where it is leaves it there. For numbers it is
also never below both (`Notch.between_place`), and for the frequency zero it is parked, unless the
lowest frequency is zero too (`Notch.place_of_zero`).
-/

namespace Rotor.Notch

open Single

variable {frequency lowest parked : Float32}

theorem place_cases (frequency lowest parked : Float32) :
    place frequency lowest parked = parked ∨
      (place frequency lowest parked = lowest ∧ ¬parked < lowest) ∨
      (place frequency lowest parked = frequency ∧ ¬frequency < lowest ∧ ¬parked < frequency) := by
  simp only [place]
  split
  · split
    · simp
    · split <;> simp_all
  · split <;> simp_all

theorem place_parked (lowest parked : Float32) : place parked lowest parked = parked := by
  have still := Single.not_lt_self parked
  by_cases below : parked < lowest
  · by_cases halved : parked < 0.5 * lowest <;> simp [place, below, halved, still]
  · simp [place, below, still]

theorem not_parked_lt_place (frequency lowest parked : Float32) :
    ¬parked < place frequency lowest parked := by
  rcases place_cases frequency lowest parked with place | ⟨place, notBelow⟩ | ⟨place, _, notBelow⟩
  · rw [place]
    exact Single.not_lt_self parked
  · rwa [place]
  · rwa [place]

theorem place_place (frequency lowest parked : Float32) :
    place (place frequency lowest parked) lowest parked = place frequency lowest parked := by
  rcases place_cases frequency lowest parked with
    there | ⟨there, notBelow⟩ | ⟨there, notLow, notBelow⟩
  · rw [there, place_parked]
  · rw [there]
    simp [place, Single.not_lt_self, notBelow]
  · rw [there]
    simp [place, notLow, notBelow]

theorem between_place (followed : frequency.isFinite = true) (low : lowest.isFinite = true)
    (high : parked.isFinite = true) :
    Between (min (toRat lowest) (toRat parked)) (toRat parked) (place frequency lowest parked) := by
  rcases place_cases frequency lowest parked with
    there | ⟨there, notBelow⟩ | ⟨there, notLow, notBelow⟩
  · rw [there]
    exact ⟨high, min_le_right _ _, le_rfl⟩
  · rw [lt_iff_toRat_lt high low, not_lt] at notBelow
    rw [there]
    exact ⟨low, min_le_left _ _, notBelow⟩
  · rw [lt_iff_toRat_lt followed low, not_lt] at notLow
    rw [lt_iff_toRat_lt high followed, not_lt] at notBelow
    rw [there]
    exact ⟨followed, (min_le_left _ _).trans notLow, notBelow⟩

/-- A motor that stands still has its notches parked, where the lowest frequency is not zero. -/
theorem place_of_zero (still : Between 0 0 frequency) (low : Between 1 255 lowest) :
    place frequency lowest parked = parked := by
  have halved : Between (1 / 2) 255 (0.5 * lowest) :=
    between_half.mul low (by norm_num) (by norm_num)
      ⟨1, -1, by decide, by decide, by norm_num⟩ (onGrid_ofNat (by decide))
      (by norm_num) (by norm_num) (by norm_num)
  have below : frequency < lowest := by
    rw [lt_iff_toRat_lt still.finite low.finite]
    linarith [still.le_high, low.low_le]
  have belowHalf : frequency < 0.5 * lowest := by
    rw [lt_iff_toRat_lt still.finite halved.finite]
    linarith [still.le_high, halved.low_le]
  simp [place, below, belowHalf, not_lt_self]

end Rotor.Notch

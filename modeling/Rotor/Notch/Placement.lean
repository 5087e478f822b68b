/-!
# Where a notch is put

A notch that follows a harmonic stays between a lowest frequency and the frequency at which it is
parked. A motor that turns slower than half the lowest frequency has no tone to remove, and its
notch is parked.
-/

namespace Rotor.Notch

/-- The frequency of a notch for a harmonic at `frequency`. Below `lowest` it is `lowest`, below
half of that it is `parked`, and it never is above `parked`. -/
def place (frequency lowest parked : Float32) : Float32 :=
  let raised :=
    if frequency < lowest then
      if frequency < 0.5 * lowest then parked else lowest
    else
      frequency
  if parked < raised then parked else raised

end Rotor.Notch

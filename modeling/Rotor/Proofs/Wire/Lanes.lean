import Mathlib.Data.List.Basic
import Rotor.Hardware
import Rotor.Wire.Pulse

/-!
# Lanes of a burst

A burst carries one word for each channel and symbol, so the words of one channel stand four apart.
`lane` reads them. A frame that is placed in the lane of one channel is what this channel is sent,
and the lanes of the other channels are left as they are.
-/

namespace Rotor

namespace Encoding

variable {words buffer : List UInt32} {start stride index : Nat}

theorem getElem?_place_of_lt (before : index < start) :
    (place words start stride buffer)[index]? = buffer[index]? := by
  induction words generalizing start buffer with
  | nil => rfl
  | cons word rest ih =>
      rw [place, ih (by omega), List.getElem?_set_ne (by omega)]

theorem getElem?_place (positive : 0 < stride) {symbol : Nat} (isWord : symbol < words.length)
    (inBuffer : start + stride * symbol < buffer.length) :
    (place words start stride buffer)[start + stride * symbol]? = words[symbol]? := by
  induction words generalizing start buffer symbol with
  | nil => simp at isWord
  | cons word rest ih =>
      rw [place]
      cases symbol with
      | zero =>
          have inBuffer : start < buffer.length := by
            simpa using inBuffer
          rw [getElem?_place_of_lt (by omega)]
          simp [inBuffer]
      | succ symbol =>
          have shifted : start + stride * (symbol + 1) = start + stride + stride * symbol := by
            rw [Nat.mul_succ]
            omega
          rw [shifted] at inBuffer ⊢
          rw [ih (by simpa using isWord) (by simpa using inBuffer)]
          simp

theorem getElem?_place_of_forall_ne
    (apart : ∀ symbol < words.length, index ≠ start + stride * symbol) :
    (place words start stride buffer)[index]? = buffer[index]? := by
  induction words generalizing start buffer with
  | nil => rfl
  | cons word rest ih =>
      have first : index ≠ start := by
        simpa using apart 0 (by simp)
      rw [place, ih, List.getElem?_set_ne first.symm]
      intro symbol isWord
      have later := apart (symbol + 1) (by simpa using isWord)
      rw [Nat.mul_succ] at later
      omega

end Encoding

/-- The words of a burst that are meant for one channel. -/
def lane (words : List UInt32) (index : Nat) : List UInt32 :=
  (List.range (words.length / channelsPerTimer)).map fun symbol =>
    words.getD (channelsPerTimer * symbol + index) 0

section Lanes

variable {words buffer : List UInt32} {index other count : Nat}

/-- A lane stands four apart in the words of a burst. -/
theorem getElem?_eq_lane (whole : words.length = count * channelsPerTimer)
    (isLane : index < channelsPerTimer) (symbol : Nat) :
    words[channelsPerTimer * symbol + index]? = (lane words index)[symbol]? := by
  simp only [channelsPerTimer] at whole isLane ⊢
  by_cases isSymbol : symbol < count
  · have inRange : 4 * symbol + index < words.length := by omega
    have symbols : symbol < words.length / 4 := by omega
    simp [lane, channelsPerTimer, symbols, inRange]
  · have beyond : words.length ≤ 4 * symbol + index := by omega
    have noSymbol : words.length / 4 ≤ symbol := by omega
    simp [lane, channelsPerTimer, beyond, noSymbol]

theorem lane_replicate_zero (length index : Nat) :
    lane (List.replicate length 0) index = List.replicate (length / channelsPerTimer) 0 := by
  refine List.eq_replicate_iff.mpr ⟨by simp [lane], ?_⟩
  intro word wordMem
  rcases List.mem_map.mp wordMem with ⟨symbol, _, rfl⟩
  rw [List.getD_eq_getElem?_getD, List.getElem?_replicate]
  split <;> rfl

theorem lane_take_place_self (isLane : index < channelsPerTimer)
    (fits : words.length * channelsPerTimer ≤ buffer.length) :
    lane ((Encoding.place words index channelsPerTimer buffer).take
      (words.length * channelsPerTimer)) index = words := by
  simp only [channelsPerTimer] at isLane fits ⊢
  apply List.ext_getElem?
  intro symbol
  by_cases isWord : symbol < words.length
  · have place : index + 4 * symbol < buffer.length := by omega
    have taken : index + 4 * symbol < words.length * 4 := by omega
    have symbols : symbol < min (words.length * 4) buffer.length / 4 := by omega
    simp [lane, channelsPerTimer, List.getElem?_take, symbols, taken, isWord,
      Nat.add_comm (4 * symbol) index, Encoding.getElem?_place (by omega) isWord place]
  · have symbols : ¬symbol < min (words.length * 4) buffer.length / 4 := by omega
    simp [lane, channelsPerTimer, symbols, isWord]

theorem lane_take_place_of_ne (isLane : index < channelsPerTimer)
    (otherLane : other < channelsPerTimer) (differ : index ≠ other) :
    lane ((Encoding.place words other channelsPerTimer buffer).take count) index =
      lane (buffer.take count) index := by
  simp only [channelsPerTimer] at isLane otherLane
  have apart (symbol : Nat) : ∀ placed < words.length,
      4 * symbol + index ≠ other + 4 * placed := by
    omega
  simp [lane, channelsPerTimer, List.getD_eq_getElem?_getD, List.getElem?_take,
    Encoding.getElem?_place_of_forall_ne (apart _)]

end Lanes

end Rotor

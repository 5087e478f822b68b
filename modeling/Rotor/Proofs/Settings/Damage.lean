import Mathlib.Data.List.Forall2
import Rotor.Proofs.Settings.RoundTrip

/-!
# Damage to a stored record

A record carries the sum of its bytes, so damage that moves the sum is found. This is so for a byte
that is replaced, and for any number of bytes that decay one way: if all of them are raised, or all
lowered, their sum moves with them (`Record.eq_of_byteSum_eq`). Two records that both pass the look
at their header and that differ in such a way only are therefore one and the same.

A byte that is replaced outside the checksum field is raised or lowered, which leaves a damaged
checksum as the one case to look at by itself.
-/

namespace Rotor

namespace Record

variable {bytes damaged : List UInt8}

/-- How the bytes of a stored record come to differ from what was written. -/
inductive Damage (bytes damaged : List UInt8) : Prop
  /-- One byte is replaced, be it in the header, the checksum, the fields or the reserved bytes. -/
  | replaced (index : Nat)
      (elsewhere : ∀ place ≠ index, byteAt damaged place = byteAt bytes place)
  /-- Bytes outside the checksum field are raised, and no byte is lowered. -/
  | raised (field : slice damaged 8 4 = slice bytes 8 4)
      (raised : ∀ place, byteAt bytes place ≤ byteAt damaged place)
  /-- Bytes outside the checksum field are lowered, and no byte is raised. -/
  | lowered (field : slice damaged 8 4 = slice bytes 8 4)
      (lowered : ∀ place, byteAt damaged place ≤ byteAt bytes place)

section Places

variable {start count : Nat}

theorem byteAt_eq_getElem {index : Nat} (inRecord : index < bytes.length) :
    byteAt bytes index = bytes[index] := by
  simp [byteAt, List.getElem?_eq_getElem inRecord]

theorem slice_slice {inner width : Nat} (within : inner + width ≤ count) :
    slice (slice bytes start count) inner width = slice bytes (start + inner) width := by
  have narrower : min width (count - inner) = width := by omega
  rw [slice, slice, slice, List.drop_take, List.drop_drop, List.take_take, narrower]

/-- Records that agree byte by byte over a range hold the same slice there. -/
theorem slice_congr (length : damaged.length = bytes.length)
    (same : ∀ place, start ≤ place → place < start + count →
      byteAt damaged place = byteAt bytes place) :
    slice damaged start count = slice bytes start count := by
  apply List.ext_getElem
  · simp [slice, length]
  · intro offset inLeft inRight
    simp only [slice, List.length_take, List.length_drop] at inLeft inRight
    have sameByte := same (start + offset) (by omega) (by omega)
    rw [byteAt_eq_getElem (by omega), byteAt_eq_getElem (by omega)] at sameByte
    simpa [slice] using sameByte

/-- Slices that spell the same number are the same. -/
theorem slice_of_numberAt (length : damaged.length = bytes.length)
    (inRecord : start + count ≤ bytes.length)
    (number : numberAt damaged start count = numberAt bytes start count) :
    slice damaged start count = slice bytes start count := by
  have spelled (record : List UInt8) (full : record.length = bytes.length) :
      bytesOfNat (numberAt record start count) count = slice record start count := by
    have back := bytesOfNat_natOfBytes (slice record start count)
    rwa [length_slice (full ▸ inRecord)] at back
  rw [← spelled damaged length, number, spelled bytes rfl]

theorem forall₂_of_byteAt {related : UInt8 → UInt8 → Prop}
    (length : bytes.length = damaged.length)
    (each : ∀ place, related (byteAt bytes place) (byteAt damaged place)) :
    List.Forall₂ related bytes damaged := by
  apply List.forall₂_of_length_eq_of_get length
  intro place inLeft inRight
  have related := each place
  rwa [byteAt_eq_getElem inLeft, byteAt_eq_getElem inRight] at related

end Places

section Sums

/-- The bytes that the checksum of a record sums up. -/
def summed (bytes : List UInt8) : List UInt8 :=
  bytes.take 8 ++ bytes.drop 12

/-- A record is the bytes of its sum and the checksum field between them. -/
theorem eq_of_summed_eq (length : bytes.length = size) (sameLength : damaged.length = size)
    (sums : summed damaged = summed bytes) (field : slice damaged 8 4 = slice bytes 8 4) :
    damaged = bytes := by
  have parts (record : List UInt8) : record = record.take 8 ++ slice record 8 4 ++ record.drop 12 := by
    have rest : slice record 8 4 ++ record.drop 12 = record.drop 8 := by
      have behind : record.drop 12 = (record.drop 8).drop 4 := by rw [List.drop_drop]
      rw [slice, behind, List.take_append_drop]
    rw [List.append_assoc, rest, List.take_append_drop]
  have headLength : (damaged.take 8).length = (bytes.take 8).length := by
    rw [List.length_take, List.length_take, length, sameLength]
  rcases (append_eq_append_iff headLength).mp sums with ⟨head, tail⟩
  rw [parts damaged, parts bytes, head, field, tail]

theorem byteSum_le_of_forall₂ (raised : List.Forall₂ (· ≤ ·) bytes damaged) :
    byteSum bytes ≤ byteSum damaged := by
  induction raised with
  | nil => exact Nat.le_refl _
  | cons least _ ih => exact Nat.add_le_add (UInt8.le_iff_toNat_le.mp least) ih

/-- Bytes of which none is lowered keep their sum only if none is raised. -/
theorem eq_of_byteSum_eq (raised : List.Forall₂ (· ≤ ·) bytes damaged)
    (sums : byteSum bytes = byteSum damaged) : bytes = damaged := by
  induction raised with
  | nil => rfl
  | @cons byte other rest others least raised ih =>
      have leastRest := byteSum_le_of_forall₂ raised
      have leastByte := UInt8.le_iff_toNat_le.mp least
      simp only [byteSum] at sums
      have sameByte : byte = other := by
        rw [← UInt8.toNat_inj]
        omega
      rw [sameByte, ih (by omega)]

theorem forall₂_summed {related : UInt8 → UInt8 → Prop}
    (each : List.Forall₂ related bytes damaged) :
    List.Forall₂ related (summed bytes) (summed damaged) :=
  List.rel_append (List.forall₂_take 8 each) (List.forall₂_drop 12 each)

end Sums

section Checked

/-- Behind an undamaged header only the checksum is left to be looked at. -/
theorem checkHeader_of_header (length : bytes.length = size) (begins : slice bytes 0 8 = header) :
    checkHeader bytes = .ok () ∨ checkHeader bytes = .error .badChecksum := by
  have written {start count : Nat} (inHeader : start + count ≤ 8) :
      slice bytes start count = slice header start count := by
    rw [← begins, slice_slice inHeader, Nat.zero_add]
  have magicBytes : slice bytes 0 4 = magic := written (by decide)
  have versionNumber : numberAt bytes 4 2 = version := congrArg natOfBytes (written (by decide))
  have sizeNumber : numberAt bytes 6 2 = size := congrArg natOfBytes (written (by decide))
  have front : bytes.take 4 = magic := magicBytes
  unfold checkHeader
  simp only [length, front, versionNumber, sizeNumber, ne_eq, not_true_eq_false, if_false]
  split
  · exact .inr rfl
  · exact .inl rfl

/-- What passes the look at the header and was only raised is unchanged. -/
theorem eq_of_raised (checked : checkHeader bytes = .ok ())
    (damagedChecked : checkHeader damaged = .ok ()) (field : slice damaged 8 4 = slice bytes 8 4)
    (raised : ∀ place, byteAt bytes place ≤ byteAt damaged place) : damaged = bytes := by
  rcases checkHeader_eq_ok_iff.mp checked with ⟨length, _, sum⟩
  rcases checkHeader_eq_ok_iff.mp damagedChecked with ⟨damagedLength, _, damagedSum⟩
  have sums : byteSum (summed bytes) = byteSum (summed damaged) := by
    rw [summed, summed, ← sum, ← damagedSum, numberAt_eq, numberAt_eq, field]
  have sameLength : bytes.length = damaged.length := length.trans damagedLength.symm
  have same := eq_of_byteSum_eq (forall₂_summed (forall₂_of_byteAt sameLength raised)) sums
  exact eq_of_summed_eq length damagedLength same.symm field

/-- What relates the one byte that was replaced, and every byte to itself, relates all bytes. -/
theorem related_of_elsewhere {related : UInt8 → UInt8 → Prop} {index : Nat}
    (unchanged : ∀ byte, related byte byte)
    (elsewhere : ∀ place ≠ index, byteAt damaged place = byteAt bytes place)
    (here : related (byteAt bytes index) (byteAt damaged index)) (place : Nat) :
    related (byteAt bytes place) (byteAt damaged place) := by
  by_cases isIndex : place = index
  · rwa [isIndex]
  · rw [elsewhere place isIndex]
    exact unchanged _

/-- A byte that is replaced within the checksum field leaves the sum as it was. -/
theorem summed_of_replaced {index : Nat} (length : damaged.length = bytes.length)
    (inField : 8 ≤ index ∧ index < 12)
    (elsewhere : ∀ place ≠ index, byteAt damaged place = byteAt bytes place) :
    summed damaged = summed bytes := by
  have head : slice damaged 0 8 = slice bytes 0 8 :=
    slice_congr length fun place _ _ => elsewhere place (by omega)
  have tail : slice damaged 12 damaged.length = slice bytes 12 damaged.length :=
    slice_congr length fun place _ _ => elsewhere place (by omega)
  have whole (record : List UInt8) (full : record.length = damaged.length) :
      slice record 12 damaged.length = record.drop 12 := by
    apply List.take_of_length_le
    rw [List.length_drop]
    omega
  rw [whole damaged rfl, whole bytes length.symm] at tail
  exact congrArg₂ (· ++ ·) head tail

/-- What passes the look at the header and has one byte replaced is unchanged. -/
theorem eq_of_replaced (checked : checkHeader bytes = .ok ())
    (damagedChecked : checkHeader damaged = .ok ()) {index : Nat}
    (elsewhere : ∀ place ≠ index, byteAt damaged place = byteAt bytes place) :
    damaged = bytes := by
  rcases checkHeader_eq_ok_iff.mp checked with ⟨length, _, sum⟩
  rcases checkHeader_eq_ok_iff.mp damagedChecked with ⟨damagedLength, _, damagedSum⟩
  have sameLength : damaged.length = bytes.length := damagedLength.trans length.symm
  by_cases inField : 8 ≤ index ∧ index < 12
  · -- the sum is what it was, so the field has to spell what it did
    have sums := summed_of_replaced sameLength inField elsewhere
    have number : numberAt damaged 8 4 = numberAt bytes 8 4 := by
      rw [damagedSum, sum]
      exact congrArg byteSum sums
    have inRecord : 8 + 4 ≤ bytes.length := by
      rw [length]
      decide
    exact eq_of_summed_eq length damagedLength sums (slice_of_numberAt sameLength inRecord number)
  · have field : slice damaged 8 4 = slice bytes 8 4 :=
      slice_congr sameLength fun place _ _ => elsewhere place (by omega)
    rcases UInt8.le_total (byteAt bytes index) (byteAt damaged index) with raised | lowered
    · exact eq_of_raised checked damagedChecked field
        (related_of_elsewhere UInt8.le_refl elsewhere raised)
    · have back : ∀ place ≠ index, byteAt bytes place = byteAt damaged place :=
        fun place other => (elsewhere place other).symm
      exact (eq_of_raised damagedChecked checked field.symm
        (related_of_elsewhere UInt8.le_refl back lowered)).symm

/-- Of two records that differ by damage only one passes the look at its header. -/
theorem eq_of_damage (checked : checkHeader bytes = .ok ())
    (damagedChecked : checkHeader damaged = .ok ()) (damage : Damage bytes damaged) :
    damaged = bytes := by
  cases damage with
  | replaced index elsewhere => exact eq_of_replaced checked damagedChecked elsewhere
  | raised field raised => exact eq_of_raised checked damagedChecked field raised
  | lowered field lowered => exact (eq_of_raised damagedChecked checked field.symm lowered).symm

end Checked

end Record

namespace StoredSettings

open Record

/-- A record that was accepted is refused once it is damaged. Where the header is left as it was, it
is the checksum that gives the damage away, and no field is looked at. -/
theorem ofBytes_of_damage {bytes damaged : List UInt8} {settings : StoredSettings}
    (accepted : ofBytes bytes = .ok settings) (length : damaged.length = 32)
    (differs : damaged ≠ bytes) (damage : Damage bytes damaged) :
    ∃ refusal, ofBytes damaged = .error refusal ∧
      (slice damaged 0 8 = slice bytes 0 8 → refusal = .badChecksum) := by
  have checked := (ofBytes_eq_ok_iff.mp accepted).1
  cases looked : checkHeader damaged with
  | ok _ => exact absurd (eq_of_damage checked looked damage) differs
  | error refusal =>
      refine ⟨refusal, ?_, ?_⟩
      · rw [ofBytes, looked]
        rfl
      · intro sameHeader
        have begins := sameHeader.trans (checkHeader_eq_ok_iff.mp checked).2.1
        rcases checkHeader_of_header length begins with passed | refused
        · cases looked.symm.trans passed
        · exact Except.error.inj (looked.symm.trans refused)

/-- Seven bytes of a record have decayed to all ones: the quality of a notch, the poles and the
protocol of the motors, and three reserved bytes. -/
theorem ofBytes_of_damage_in_many_fields :
    let bytes := ({} : StoredSettings).toBytes
    let damaged := bytes.take 14 ++ [0xFF, 0xFF] ++ (bytes.drop 16).take 5 ++ [0xFF, 0xFF] ++
      (bytes.drop 23).take 3 ++ List.replicate 3 0xFF ++ bytes.drop 29
    ofBytes bytes = .ok {} ∧ damaged.length = 32 ∧ damaged ≠ bytes ∧ Damage bytes damaged ∧
      ofBytes damaged = .error .badChecksum := by
  intro bytes damaged
  have accepted : ofBytes bytes = .ok {} := by decide
  have length : damaged.length = 32 := by decide
  have differs : damaged ≠ bytes := by decide
  have raised : ∀ place, byteAt bytes place ≤ byteAt damaged place := by
    intro place
    rcases Nat.lt_or_ge place 32 with inRecord | beyond
    · exact (by decide : ∀ place < 32, byteAt bytes place ≤ byteAt damaged place) place inRecord
    · have nothing : bytes[place]? = none := List.getElem?_eq_none beyond
      rw [byteAt, List.getD_eq_getElem?_getD, nothing]
      exact UInt8.zero_le
  have damage : Damage bytes damaged := .raised (by decide) raised
  rcases ofBytes_of_damage accepted length differs damage with ⟨refusal, refused, isChecksum⟩
  obtain rfl := isChecksum (by decide)
  exact ⟨accepted, length, differs, damage, refused⟩

end StoredSettings

end Rotor

import Mathlib.Algebra.Ring.Nat
import Mathlib.Data.List.Basic
import Rotor.Settings.Record

/-!
# Storing settings and reading them back

A record is read back field by field, at places that have to be those where the fields were written.
Here this is said once for slices of a record: a slice that spells a number holds the bytes of this
number, and a slice that is read as a bank holds the bytes of this bank. A record is therefore
accepted as given settings exactly when its header, its fields and its checksum are those of the
settings, while its reserved bytes and flags do not count.
-/

namespace Rotor

namespace Record

variable {bytes : List UInt8} {start count number : Nat}

/-- The `count` bytes from `start` on. -/
def slice (bytes : List UInt8) (start count : Nat) : List UInt8 :=
  (bytes.drop start).take count

section Slices

theorem numberAt_eq (bytes : List UInt8) (start count : Nat) :
    numberAt bytes start count = natOfBytes (slice bytes start count) :=
  rfl

theorem length_slice (inRecord : start + count ≤ bytes.length) :
    (slice bytes start count).length = count := by
  rw [slice, List.length_take, List.length_drop]
  omega

theorem slice_add (bytes : List UInt8) (start first second : Nat) :
    slice bytes start (first + second) =
      slice bytes start first ++ slice bytes (start + first) second := by
  rw [slice, List.take_add, List.drop_drop]
  rfl

theorem slice_succ (inRecord : start < bytes.length) (count : Nat) :
    slice bytes start (count + 1) = byteAt bytes start :: slice bytes (start + 1) count := by
  have first : byteAt bytes start = bytes[start] := by
    simp [byteAt, List.getElem?_eq_getElem inRecord]
  rw [slice, List.drop_eq_getElem_cons inRecord, List.take_succ_cons, first]
  rfl

theorem append_eq_append_iff {front rest other last : List UInt8}
    (length : front.length = other.length) :
    front ++ rest = other ++ last ↔ front = other ∧ rest = last := by
  constructor
  · intro same
    exact List.append_inj same length
  · rintro ⟨rfl, rfl⟩
    rfl

end Slices

section Numbers

@[simp]
theorem length_bytesOfNat (number count : Nat) : (bytesOfNat number count).length = count := by
  induction count generalizing number with
  | zero => rfl
  | succ count ih => simp [bytesOfNat, ih]

theorem natOfBytes_bytesOfNat (number count : Nat) :
    natOfBytes (bytesOfNat number count) = number % 256 ^ count := by
  induction count generalizing number with
  | zero => simp [bytesOfNat, natOfBytes, Nat.mod_one]
  | succ count ih =>
      have grown : 256 ^ (count + 1) = 256 * 256 ^ count := Nat.pow_succ'
      rw [bytesOfNat, natOfBytes, ih, UInt8.toNat_ofNat', grown, Nat.mod_mul]

theorem bytesOfNat_natOfBytes (bytes : List UInt8) :
    bytesOfNat (natOfBytes bytes) bytes.length = bytes := by
  induction bytes with
  | nil => rfl
  | cons byte rest ih =>
      have small := byte.toNat_lt
      have low : UInt8.ofNat (byte.toNat + 256 * natOfBytes rest) = byte := by
        rw [← UInt8.toNat_inj, UInt8.toNat_ofNat']
        omega
      have high : (byte.toNat + 256 * natOfBytes rest) / 256 = natOfBytes rest := by omega
      rw [natOfBytes, List.length_cons, bytesOfNat, low, high, ih]

/-- Bytes spell a number that fits them exactly when they are its bytes. -/
theorem natOfBytes_eq_iff (length : bytes.length = count) (fits : number < 256 ^ count) :
    natOfBytes bytes = number ↔ bytes = bytesOfNat number count := by
  constructor
  · rintro rfl
    rw [← length, bytesOfNat_natOfBytes]
  · rintro rfl
    rw [natOfBytes_bytesOfNat, Nat.mod_eq_of_lt fits]

theorem natOfBytes_lt (bytes : List UInt8) : natOfBytes bytes < 256 ^ bytes.length := by
  rw [← bytesOfNat_natOfBytes bytes, natOfBytes_bytesOfNat, length_bytesOfNat]
  exact Nat.mod_lt _ (Nat.pow_pos (by decide))

theorem byteSum_le (bytes : List UInt8) : byteSum bytes ≤ 255 * bytes.length := by
  induction bytes with
  | nil => exact Nat.le_refl _
  | cons byte rest ih =>
      have small := byte.toNat_lt
      rw [byteSum, List.length_cons]
      omega

/-- The sum of a record fits its field. -/
theorem toNat_checksum (length : bytes.length = size) :
    (checksum bytes).toNat = byteSum (bytes.take 8 ++ bytes.drop 12) := by
  have bound := byteSum_le (bytes.take 8 ++ bytes.drop 12)
  simp only [List.length_append, List.length_take, List.length_drop, length, size] at bound
  rw [checksum, UInt32.toNat_ofNat']
  omega

end Numbers

section Header

/-- A record passes the look at its header when it begins with the header and its checksum is the
sum of the other bytes. -/
theorem checkHeader_eq_ok_iff :
    checkHeader bytes = .ok () ↔ bytes.length = size ∧ slice bytes 0 8 = header ∧
      numberAt bytes 8 4 = byteSum (bytes.take 8 ++ bytes.drop 12) := by
  by_cases length : bytes.length = size
  · have inRecord : bytes.length = 32 := length
    have begins_iff : slice bytes 0 8 = header ↔ bytes.take 4 = magic ∧
        numberAt bytes 4 2 = version ∧ numberAt bytes 6 2 = size := by
      have version_iff : numberAt bytes 4 2 = version ↔ slice bytes 4 2 = bytesOfNat version 2 :=
        natOfBytes_eq_iff (length_slice (by omega)) (by decide)
      have size_iff : numberAt bytes 6 2 = size ↔ slice bytes 6 2 = bytesOfNat size 2 :=
        natOfBytes_eq_iff (length_slice (by omega)) (by decide)
      have magicLength : (slice bytes 0 4).length = magic.length :=
        length_slice (by omega)
      have versionLength : (slice bytes 0 4 ++ slice bytes 4 2).length =
          (magic ++ bytesOfNat version 2).length := by
        rw [List.length_append, magicLength, length_slice (by omega)]
        rfl
      rw [slice_add bytes 0 6 2, slice_add bytes 0 4 2, header,
        append_eq_append_iff versionLength, append_eq_append_iff magicLength, version_iff, size_iff,
        and_assoc]
      rfl
    rw [begins_iff, ← toNat_checksum length]
    unfold checkHeader
    split_ifs <;> simp_all
  · simp [checkHeader, length]

end Header

section Fields

theorem bankAt_eq_iff {bank : BankSettings} (inRecord : start + 4 ≤ bytes.length) :
    bankAt bytes start = bank ↔ slice bytes start 4 = bankBytes bank := by
  have quality_iff : UInt16.ofNat (numberAt bytes (start + 2) 2) = bank.quality ↔
      slice bytes (start + 2) 2 = bytesOfNat bank.quality.toNat 2 := by
    have length : (slice bytes (start + 2) 2).length = 2 := length_slice (by omega)
    have small : numberAt bytes (start + 2) 2 < 2 ^ 16 := by
      simpa [length, numberAt_eq] using natOfBytes_lt (slice bytes (start + 2) 2)
    rw [← natOfBytes_eq_iff length bank.quality.toNat_lt, ← UInt16.toNat_inj, UInt16.toNat_ofNat',
      Nat.mod_eq_of_lt small, numberAt_eq]
  rcases bank with ⟨harmonics, minHertz, quality⟩
  rw [slice_succ (by omega), slice_succ (by omega)]
  simp only [bankAt, bankBytes, BankSettings.mk.injEq, quality_iff, List.cons_append,
    List.nil_append, List.cons.injEq]

/-- The flags are the two low bits of their byte. -/
theorem flags_eq_iff {byte : UInt8} {motor : MotorSettings} :
    (decide (byte &&& 1 ≠ 0) = motor.telemetry ∧ decide (byte &&& 2 ≠ 0) = motor.burst) ↔
      byte &&& 3 = flagByte motor := by
  have low : byte &&& 1 = byte &&& 3 &&& 1 ∧ byte &&& 2 = byte &&& 3 &&& 2 := by
    rw [UInt8.and_assoc, UInt8.and_assoc]
    exact ⟨rfl, rfl⟩
  have small : (byte &&& 3).toNat < 4 := by
    rw [UInt8.toNat_and]
    exact Nat.lt_succ_of_le Nat.and_le_right
  rw [low.1, low.2, flagByte]
  generalize byte &&& 3 = flags at small
  have cases : flags = 0 ∨ flags = 1 ∨ flags = 2 ∨ flags = 3 := by
    simp only [← UInt8.toNat_inj, UInt8.reduceToNat]
    omega
  rcases cases with rfl | rfl | rfl | rfl <;>
    cases motor.telemetry <;> cases motor.burst <;> decide

theorem ofCode?_eq_some_iff {code : UInt8} {protocol : Protocol} :
    Protocol.ofCode? code = some protocol ↔ code = protocol.code := by
  constructor
  · intro known
    unfold Protocol.ofCode? at known
    split at known <;> cases known <;> rfl
  · rintro rfl
    exact Protocol.ofCode?_code protocol

theorem fields_eq_ok_iff {settings : StoredSettings} :
    fields bytes = .ok settings ↔
      bankAt bytes 12 = settings.filter.gyro ∧ bankAt bytes 16 = settings.filter.dterm ∧
        byteAt bytes 20 = settings.motor.motorCount ∧ byteAt bytes 21 = settings.motor.poleCount ∧
        byteAt bytes 22 = settings.motor.protocol.code ∧
        decide (byteAt bytes 23 &&& 1 ≠ 0) = settings.motor.telemetry ∧
        decide (byteAt bytes 23 &&& 2 ≠ 0) = settings.motor.burst := by
  rcases settings with ⟨⟨gyro, dterm⟩, ⟨motorCount, poleCount, protocol, telemetry, burst⟩⟩
  rw [← ofCode?_eq_some_iff]
  unfold fields
  cases Protocol.ofCode? (byteAt bytes 22) with
  | none => simp
  | some known =>
      simp only [Except.ok.injEq, StoredSettings.mk.injEq, FilterSettings.mk.injEq,
        MotorSettings.mk.injEq, Option.some.injEq, and_assoc]

/-- The fields of a record are those of settings when it holds the same bytes there. -/
theorem fields_eq_ok_iff_slice {settings : StoredSettings} (length : bytes.length = size) :
    fields bytes = .ok settings ↔ slice bytes 12 11 = slice settings.toBytes 12 11 ∧
      byteAt bytes 23 &&& 3 = byteAt settings.toBytes 23 &&& 3 := by
  have inRecord : bytes.length = 32 := length
  have written : slice settings.toBytes 12 11 =
      bankBytes settings.filter.gyro ++ bankBytes settings.filter.dterm ++
        [settings.motor.motorCount, settings.motor.poleCount, settings.motor.protocol.code] :=
    rfl
  have flags : byteAt settings.toBytes 23 &&& 3 = flagByte settings.motor := by
    change flagByte settings.motor &&& 3 = flagByte settings.motor
    unfold flagByte
    cases settings.motor.telemetry <;> cases settings.motor.burst <;> rfl
  have gyroLength : (slice bytes 12 4).length = (bankBytes settings.filter.gyro).length :=
    length_slice (by omega)
  have banksLength : (slice bytes 12 4 ++ slice bytes 16 4).length =
      (bankBytes settings.filter.gyro ++ bankBytes settings.filter.dterm).length := by
    rw [List.length_append, gyroLength, length_slice (by omega)]
    rfl
  have motors : slice bytes 20 3 = [byteAt bytes 20, byteAt bytes 21, byteAt bytes 22] := by
    rw [slice_succ (by omega), slice_succ (by omega), slice_succ (by omega)]
    rfl
  rw [fields_eq_ok_iff, flags_eq_iff, written, flags, slice_add bytes 12 8 3,
    slice_add bytes 12 4 4, append_eq_append_iff banksLength, append_eq_append_iff gyroLength,
    bankAt_eq_iff (by omega), bankAt_eq_iff (by omega), motors]
  simp only [List.cons.injEq, and_true, and_assoc]

end Fields

end Record

namespace StoredSettings

open Record

variable {bytes : List UInt8} {settings : StoredSettings}

theorem ofBytes_eq_ok_iff :
    ofBytes bytes = .ok settings ↔
      checkHeader bytes = .ok () ∧ fields bytes = .ok settings ∧ settings.validate = .ok () := by
  unfold ofBytes
  cases checkHeader bytes with
  | error refusal => simp [bind, Except.bind]
  | ok _ =>
      cases fields bytes with
      | error refusal => simp [bind, Except.bind]
      | ok read =>
          cases checked : read.validate with
          | error refusal =>
              simp only [bind, Except.bind, checked, reduceCtorEq, Except.ok.injEq, true_and,
                false_iff, not_and]
              rintro rfl
              simp [checked]
          | ok _ =>
              simp only [bind, Except.bind, checked, pure, Except.pure, Except.ok.injEq, true_and]
              constructor
              · rintro rfl
                exact ⟨rfl, checked⟩
              · exact And.left

@[simp]
theorem length_toBytes (settings : StoredSettings) : settings.toBytes.length = size :=
  rfl

theorem checkHeader_toBytes (settings : StoredSettings) :
    checkHeader settings.toBytes = .ok () := by
  have bound := byteSum_le (header ++ settings.body)
  have length : (header ++ settings.body).length = 28 := rfl
  have sum : numberAt settings.toBytes 8 4 = byteSum (header ++ settings.body) := by
    change natOfBytes (bytesOfNat (byteSum (header ++ settings.body)) 4) = _
    rw [natOfBytes_bytesOfNat]
    omega
  exact checkHeader_eq_ok_iff.mpr ⟨rfl, rfl, sum⟩

theorem fields_toBytes (settings : StoredSettings) :
    fields settings.toBytes = .ok settings :=
  (fields_eq_ok_iff_slice rfl).mpr ⟨rfl, rfl⟩

/-- A record is accepted as given settings exactly when it has the right size, the settings are
valid, the header and the fields are those of the settings, and the checksum is the sum of the other
bytes. So settings that are stored are read back, unless they are refused as they would be
themselves, and a record of another size is refused before any of its bytes counts. -/
theorem ofBytes_accepts_stored :
    (∀ (bytes : List UInt8) (settings : StoredSettings),
      ofBytes bytes = .ok settings ↔
        bytes.length = 32 ∧ settings.validate = .ok () ∧
        slice bytes 0 8 = slice settings.toBytes 0 8 ∧
        slice bytes 12 11 = slice settings.toBytes 12 11 ∧
        byteAt bytes 23 &&& 3 = byteAt settings.toBytes 23 &&& 3 ∧
        numberAt bytes 8 4 = byteSum (bytes.take 8 ++ bytes.drop 12)) ∧
    (∀ settings : StoredSettings,
      ofBytes settings.toBytes = settings.validate.map fun _ => settings) ∧
    ∀ bytes : List UInt8, bytes.length ≠ 32 → ofBytes bytes = .error (.badSize bytes.length) := by
  refine ⟨?_, ?_, ?_⟩
  · intro bytes settings
    have written : slice settings.toBytes 0 8 = header := rfl
    rw [ofBytes_eq_ok_iff, checkHeader_eq_ok_iff, written]
    constructor
    · rintro ⟨⟨length, begins, sum⟩, stored, valid⟩
      rcases (fields_eq_ok_iff_slice length).mp stored with ⟨same, flags⟩
      exact ⟨length, valid, begins, same, flags, sum⟩
    · rintro ⟨length, valid, begins, same, flags, sum⟩
      exact ⟨⟨length, begins, sum⟩, (fields_eq_ok_iff_slice length).mpr ⟨same, flags⟩, valid⟩
  · intro settings
    simp only [ofBytes, checkHeader_toBytes, fields_toBytes, bind, Except.bind]
    cases settings.validate <;> rfl
  · intro bytes otherSize
    have refused : checkHeader bytes = .error (.badSize bytes.length) :=
      if_pos otherSize
    rw [ofBytes, refused]
    rfl

end StoredSettings

end Rotor

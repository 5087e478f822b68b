import Rotor.Settings.Basic

/-!
# The stored record

Settings are stored as a record of 32 bytes, numbers with their low byte first:

* bytes 0 to 3, the magic bytes;
* bytes 4 to 7, the version and the size of the record;
* bytes 8 to 11, the checksum, which is the sum of all other bytes;
* bytes 12 to 19, the gyro bank and the D-term bank: harmonics, lowest frequency, quality;
* bytes 20 to 23, the motors: count, poles, protocol, and two flags;
* bytes 24 to 31, reserved and written as zero.

`StoredSettings.ofBytes` looks at the header, then at the checksum, then at the settings themselves.
-/

namespace Rotor

namespace Record

/-- The bytes that a record starts with. -/
def magic : List UInt8 := [0xDE, 0xAD, 0xC0, 0xDE]

/-- The version of the record. -/
def version : Nat := 2

/-- The number of bytes in a record. -/
def size : Nat := 32

/-- The low `count` bytes of a number, the lowest first. -/
def bytesOfNat (number : Nat) : Nat → List UInt8
  | 0 => []
  | count + 1 => UInt8.ofNat number :: bytesOfNat (number / 256) count

/-- The number that bytes spell, the lowest first. -/
def natOfBytes : List UInt8 → Nat
  | [] => 0
  | byte :: rest => byte.toNat + 256 * natOfBytes rest

/-- The sum of bytes. -/
def byteSum : List UInt8 → Nat
  | [] => 0
  | byte :: rest => byte.toNat + byteSum rest

/-- The sum of all bytes of a record outside its checksum field, as a 32-bit word. -/
def checksum (bytes : List UInt8) : UInt32 :=
  UInt32.ofNat (byteSum (bytes.take 8 ++ bytes.drop 12))

/-- The header: magic bytes, version and size. -/
def header : List UInt8 :=
  magic ++ bytesOfNat version 2 ++ bytesOfNat size 2

/-- The four bytes of a bank. -/
def bankBytes (bank : BankSettings) : List UInt8 :=
  [bank.harmonics, bank.minHertz] ++ bytesOfNat bank.quality.toNat 2

/-- The byte of flags: telemetry in bit 0, burst in bit 1. -/
def flagByte (motor : MotorSettings) : UInt8 :=
  (if motor.telemetry then 1 else 0) ||| (if motor.burst then 2 else 0)

/-- The four bytes of the motor settings. -/
def motorBytes (motor : MotorSettings) : List UInt8 :=
  [motor.motorCount, motor.poleCount, motor.protocol.code, flagByte motor]

/-- The byte at `index`, zero past the end. -/
def byteAt (bytes : List UInt8) (index : Nat) : UInt8 :=
  bytes.getD index 0

/-- The number that `count` bytes from `start` on spell. -/
def numberAt (bytes : List UInt8) (start count : Nat) : Nat :=
  natOfBytes ((bytes.drop start).take count)

/-- The bank that is stored from byte `start` on. -/
def bankAt (bytes : List UInt8) (start : Nat) : BankSettings where
  harmonics := byteAt bytes start
  minHertz := byteAt bytes (start + 1)
  quality := UInt16.ofNat (numberAt bytes (start + 2) 2)

/-- Looks at the header and the checksum of a record. -/
def checkHeader (bytes : List UInt8) : Except SettingsError Unit :=
  if bytes.length ≠ size then
    .error (.badSize bytes.length)
  else if bytes.take 4 ≠ magic then
    .error .badMagic
  else if numberAt bytes 4 2 ≠ version then
    .error (.badVersion (numberAt bytes 4 2))
  else if numberAt bytes 6 2 ≠ size then
    .error (.badSize (numberAt bytes 6 2))
  else if numberAt bytes 8 4 ≠ (checksum bytes).toNat then
    .error .badChecksum
  else
    .ok ()

/-- The settings that the fields of a record hold, as far as its protocol is known. -/
def fields (bytes : List UInt8) : Except SettingsError StoredSettings :=
  match Protocol.ofCode? (byteAt bytes 22) with
  | none => .error (.badProtocol (byteAt bytes 22))
  | some protocol => .ok
    { filter := { gyro := bankAt bytes 12, dterm := bankAt bytes 16 }
      motor :=
        { motorCount := byteAt bytes 20
          poleCount := byteAt bytes 21
          protocol
          telemetry := byteAt bytes 23 &&& 1 ≠ 0
          burst := byteAt bytes 23 &&& 2 ≠ 0 } }

end Record

namespace StoredSettings

open Record

/-- The bytes behind the checksum field. -/
def body (settings : StoredSettings) : List UInt8 :=
  bankBytes settings.filter.gyro ++ bankBytes settings.filter.dterm ++ motorBytes settings.motor ++
    List.replicate 8 0

/-- The record that stores `settings`. -/
def toBytes (settings : StoredSettings) : List UInt8 :=
  header ++ bytesOfNat (byteSum (header ++ settings.body)) 4 ++ settings.body

/-- The settings that a record stores, unless its header, its checksum or the settings themselves
are refused. -/
def ofBytes (bytes : List UInt8) : Except SettingsError StoredSettings := do
  checkHeader bytes
  let settings ← fields bytes
  settings.validate
  return settings

end StoredSettings

end Rotor

/-
**Modbus-RTU frames.**

`modbus.c` of `ser2mqtt`: the checksum of a frame, and the test that a frame is one.

* `Ser2mqtt.calculateCrc16` — the checksum;
* `Ser2mqtt.checkModbusRtuFormat` — the test, with the result of the C function;
* `Ser2mqtt.checkModbusRtuFormat_append` — what it asks of a frame;
* `Ser2mqtt.withCrc` — a frame made of some data and its checksum;
* `Ser2mqtt.checkModbusRtuFormat_withCrc` — **such a frame passes the test** if its data have a
  function code.
-/
import Mathlib.Data.Int.Notation
import OpenwrtPackage.Lib.Bytes

set_option relaxedAutoImplicit false
set_option autoImplicit false

namespace Ser2mqtt

open Bytes

/-- The `MODBUS_*` function codes that are accepted. -/
def modbusFunctionCodes : List UInt8 := [0x01, 0x02, 0x03, 0x04, 0x05, 0x06, 0x0F, 0x10]

/-- The body of the inner loop of `calculate_crc16`. -/
def crcShift (crc : UInt16) : UInt16 :=
  if crc &&& 0x0001 ≠ 0 then (crc >>> 1) ^^^ 0xA001 else crc >>> 1

/-- The body of the outer loop: one byte of the data. -/
def crcByte (crc : UInt16) (data : UInt8) : UInt16 := Nat.repeat crcShift 8 (crc ^^^ data.toUInt16)

/-- `calculate_crc16`. -/
def calculateCrc16 (data : List UInt8) : UInt16 := data.foldl crcByte 0xFFFF

/-- `check_modbus_rtu_format`. -/
def checkModbusRtuFormat (data : List UInt8) : ℤ :=
  if data.length < 4 then -1
  else if byteAt data 1 ∉ modbusFunctionCodes then -1
  else
    let calculatedCrc := calculateCrc16 (data.take (data.length - 2))
    let receivedCrc := ((byteAt data (data.length - 1)).toUInt16 <<< 8) |||
      (byteAt data (data.length - 2)).toUInt16
    if calculatedCrc ≠ receivedCrc then -1 else 0

/-- The data followed by their checksum, low byte first. -/
def withCrc (data : List UInt8) : List UInt8 :=
  data ++ [(calculateCrc16 data).toUInt8, (calculateCrc16 data >>> 8).toUInt8]

theorem length_withCrc (data : List UInt8) : (withCrc data).length = data.length + 2 := by
  rw [withCrc, List.length_append]
  rfl

/-- A 16-bit number is put together from its two bytes. -/
theorem join_bytes (x : UInt16) : ((x >>> 8).toUInt8.toUInt16 <<< 8) ||| x.toUInt8.toUInt16 = x := by
  have hx := x.toNat_lt
  have hhigh : x.toNat / 2 ^ 8 % 2 ^ 8 = x.toNat / 2 ^ 8 := Nat.mod_eq_of_lt (by omega)
  have hshift : (x.toNat / 2 ^ 8) <<< 8 % 2 ^ 16 = (x.toNat / 2 ^ 8) <<< 8 := by
    rw [Nat.shiftLeft_eq]
    exact Nat.mod_eq_of_lt (by omega)
  have hlow : x.toNat % 2 ^ 8 < 2 ^ 8 := Nat.mod_lt _ (by decide)
  apply UInt16.toNat_inj.1
  have hred : (8 : UInt16).toNat % 16 = 8 := rfl
  rw [UInt16.toNat_or, UInt16.toNat_shiftLeft, UInt8.toNat_toUInt16, UInt8.toNat_toUInt16,
    UInt16.toNat_toUInt8, UInt16.toNat_toUInt8, UInt16.toNat_shiftRight, hred,
    Nat.shiftRight_eq_div_pow, hhigh, hshift, ← Nat.shiftLeft_add_eq_or_of_lt hlow,
    Nat.shiftLeft_eq]
  omega

/-- What `check_modbus_rtu_format` asks of a sequence of two bytes or more. -/
theorem checkModbusRtuFormat_append (body : List UInt8) (low high : UInt8) :
    checkModbusRtuFormat (body ++ [low, high]) = 0 ↔
      4 ≤ (body ++ [low, high]).length ∧ byteAt (body ++ [low, high]) 1 ∈ modbusFunctionCodes ∧
        calculateCrc16 body = (high.toUInt16 <<< 8) ||| low.toUInt16 := by
  have hlen : (body ++ [low, high]).length = body.length + 2 := by simp
  have htake : (body ++ [low, high]).take body.length = body := List.take_left
  have hlow : byteAt (body ++ [low, high]) body.length = low := by simp [byteAt]
  have hhigh : byteAt (body ++ [low, high]) (body.length + 1) = high := by simp [byteAt]
  have hlast : body.length + 2 - 1 = body.length + 1 := by omega
  have hprev : body.length + 2 - 2 = body.length := by omega
  unfold checkModbusRtuFormat
  by_cases hshort : (body ++ [low, high]).length < 4
  · rw [if_pos hshort]
    exact iff_of_false (by decide) fun h => absurd h.1 (by omega)
  rw [if_neg hshort]
  by_cases hcode : byteAt (body ++ [low, high]) 1 ∈ modbusFunctionCodes
  · rw [if_neg (not_not.2 hcode)]
    dsimp only
    rw [hlen, hlast, hprev, htake, hlow, hhigh]
    by_cases hcrc : calculateCrc16 body = (high.toUInt16 <<< 8) ||| low.toUInt16
    · rw [if_neg (not_not.2 hcrc)]
      exact iff_of_true rfl ⟨by omega, hcode, hcrc⟩
    · rw [if_pos hcrc]
      exact iff_of_false (by decide) fun h => hcrc h.2.2
  · rw [if_pos hcode]
    exact iff_of_false (by decide) fun h => hcode h.2.1

/-- Data with a function code make a frame together with their checksum. -/
theorem checkModbusRtuFormat_withCrc {data : List UInt8} (hlen : 2 ≤ data.length)
    (hcode : byteAt data 1 ∈ modbusFunctionCodes) : checkModbusRtuFormat (withCrc data) = 0 := by
  have hlength := length_withCrc data
  have hsecond : byteAt (withCrc data) 1 = byteAt data 1 := byteAt_append_left (by omega)
  refine (checkModbusRtuFormat_append data _ _).2 ⟨?_, ?_, (join_bytes _).symm⟩
  · rw [← withCrc, hlength]
    omega
  · rw [← withCrc, hsecond]
    exact hcode

/-- Reading one holding register of the device 1. -/
example : checkModbusRtuFormat [0x01, 0x03, 0x00, 0x00, 0x00, 0x01, 0x84, 0x0A] = 0 := by
  decide +kernel

end Ser2mqtt

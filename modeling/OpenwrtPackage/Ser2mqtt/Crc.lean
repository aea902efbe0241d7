/-
**The checksum of a Modbus frame.**

CRC-16/MODBUS is a remainder of polynomials over the field of two elements: the bits of a message,
in the order in which they are sent, with a register of ones in front of them, are divided by
`x^16 + x^15 + x^2 + 1`.  `calculate_crc16` finds it without a division, and
`check_modbus_rtu_format` compares it with the last two bytes of a frame.

* `Ser2mqtt.modbusRemainder`, `Ser2mqtt.crc16Modbus` — the remainder, and the number it stands for;
* `Ser2mqtt.crcShift_toBitVec`, `Ser2mqtt.crcByte_toBitVec` — the loops of the program shift a
  register;
* `Ser2mqtt.register_calculateCrc16` — **what the loops leave is the remainder**;
* `Ser2mqtt.calculateCrc16_append_eq_zero_iff` — the checksum of a whole frame;
* `Ser2mqtt.modbus_acceptance` — **the frames that are accepted**.
-/
import OpenwrtPackage.Lib.Crc
import OpenwrtPackage.Ser2mqtt.Modbus

set_option relaxedAutoImplicit false
set_option autoImplicit false

namespace Ser2mqtt

open Bytes BitPoly Crc Polynomial

/-! ### The checksum as a remainder -/

/-- The bits of a frame in the order in which they are sent. -/
def transmitted (data : List UInt8) : List Bool := data.flatMap fun b => bitsLE b.toBitVec

/-- The generator of CRC-16/MODBUS. -/
noncomputable def modbusGenerator : (ZMod 2)[X] := X ^ 16 + X ^ 15 + X ^ 2 + 1

/-- The remainder of CRC-16/MODBUS, with a register that begins with ones. -/
noncomputable def modbusRemainder (data : List UInt8) : (ZMod 2)[X] :=
  (X ^ (transmitted data).length * ofBits (List.replicate 16 true) +
    X ^ 16 * ofBits (transmitted data)) %ₘ modbusGenerator

/-- CRC-16/MODBUS: the bit `k` is the coefficient of `x^(15-k)` in the remainder. -/
noncomputable def crc16Modbus (data : List UInt8) : UInt16 :=
  UInt16.ofBitVec (word 16 (modbusRemainder data))

/-- The two bytes of a checksum, the low one first. -/
def crcBytes (crc : UInt16) : List UInt8 := [crc.toUInt8, (crc >>> 8).toUInt8]

/-! ### The register of the program -/

/-- `0xA001` -/
def crcTaps : BitVec 16 := 0xA001

theorem and_one_ne_zero_iff (crc : UInt16) :
    crc &&& 0x0001 ≠ 0 ↔ crc.toBitVec.getLsbD 0 = true := by
  have hbit : (crc &&& 0x0001).toNat = crc.toNat % 2 := by
    rw [UInt16.toNat_and]
    exact Nat.and_one_is_mod _
  rw [ne_eq, ← UInt16.toNat_inj, hbit, BitVec.getLsbD, Nat.testBit_zero]
  simp

theorem crcShift_toBitVec (crc : UInt16) :
    (crcShift crc).toBitVec = step crcTaps crc.toBitVec := by
  rw [crcShift, step]
  by_cases hbit : crc &&& 0x0001 ≠ 0
  · rw [if_pos hbit, if_pos ((and_one_ne_zero_iff crc).1 hbit), UInt16.toBitVec_xor]
    rfl
  · rw [if_neg hbit, if_neg fun h => hbit ((and_one_ne_zero_iff crc).2 h)]
    rfl

theorem repeat_crcShift_toBitVec (n : ℕ) (crc : UInt16) :
    (Nat.repeat crcShift n crc).toBitVec = (step crcTaps)^[n] crc.toBitVec := by
  induction n with
  | zero => rfl
  | succ n ih => rw [Nat.repeat, crcShift_toBitVec, ih, Function.iterate_succ_apply']

theorem crcByte_toBitVec (crc : UInt16) (data : UInt8) :
    (crcByte crc data).toBitVec = absorb crcTaps crc.toBitVec data.toBitVec := by
  rw [crcByte, repeat_crcShift_toBitVec, UInt16.toBitVec_xor, UInt8.toBitVec_toUInt16]
  rfl

/-- The outer loop, from any register on. -/
theorem foldl_crcByte_toBitVec (crc : UInt16) (data : List UInt8) :
    (data.foldl crcByte crc).toBitVec =
      (data.map UInt8.toBitVec).foldl (absorb crcTaps) crc.toBitVec := by
  induction data generalizing crc with
  | nil => rfl
  | cons b data ih => rw [List.foldl_cons, ih, crcByte_toBitVec, List.map_cons, List.foldl_cons]

theorem calculateCrc16_toBitVec (data : List UInt8) :
    (calculateCrc16 data).toBitVec =
      (data.map UInt8.toBitVec).foldl (absorb crcTaps) (0xFFFF#16) :=
  foldl_crcByte_toBitVec 0xFFFF data

/-- The constant of the program belongs to the generator. -/
theorem generator_crcTaps : generator crcTaps = modbusGenerator := by
  have hbits : bitsLE crcTaps = [true, false, false, false, false, false, false, false, false,
      false, false, false, false, true, false, true] := by decide
  rw [generator, register, hbits, modbusGenerator]
  simp [ofBits_cons]
  ring

theorem flatMap_bitsLE (data : List UInt8) :
    (data.map UInt8.toBitVec).flatMap bitsLE = transmitted data := by
  rw [List.flatMap_map]
  rfl

/-- **What the loops leave is the remainder.** -/
theorem register_calculateCrc16 (data : List UInt8) :
    register (calculateCrc16 data).toBitVec = modbusRemainder data := by
  have hinit : bitsLE 0xFFFF#16 = List.replicate 16 true := by decide
  rw [calculateCrc16_toBitVec, register_foldl crcTaps (by decide), flatMap_bitsLE, remainder,
    generator_crcTaps, register, hinit, modbusRemainder]

theorem calculateCrc16_eq (data : List UInt8) : calculateCrc16 data = crc16Modbus data := by
  rw [crc16Modbus, ← register_calculateCrc16, register, word_ofBits]

/-- The check value of CRC-16/MODBUS, of the digits from 1 to 9. -/
example : calculateCrc16 [0x31, 0x32, 0x33, 0x34, 0x35, 0x36, 0x37, 0x38, 0x39] = 0x4B37 := by
  decide +kernel

/-! ### The whole frame -/

theorem coeff_zero_generator : (generator crcTaps).coeff 0 ≠ 0 := by
  rw [generator_crcTaps, modbusGenerator]
  simp [coeff_X_pow]

/-- The number that is put together from two bytes. -/
theorem toBitVec_join (low high : UInt8) :
    ((high.toUInt16 <<< 8) ||| low.toUInt16).toBitVec = high.toBitVec ++ low.toBitVec := by
  have hshift : (high.toUInt16 <<< 8).toBitVec = high.toBitVec.setWidth 16 <<< 8 := rfl
  rw [UInt16.toBitVec_or, hshift, UInt8.toBitVec_toUInt16]
  refine BitVec.eq_of_getLsbD_eq fun i hi => ?_
  rw [BitVec.getLsbD_or, BitVec.getLsbD_shiftLeft, BitVec.getLsbD_setWidth,
    BitVec.getLsbD_setWidth, BitVec.getLsbD_append]
  by_cases hlow : i < 8
  · simp [hlow, hi]
  · have hout : low.toBitVec.getLsbD i = false := BitVec.getLsbD_of_ge _ _ (by omega)
    have hplace : i - 8 < 16 := by omega
    simp [hlow, hi, hout, hplace]

/-- The checksum of a message with two more bytes is zero exactly when these are its checksum. -/
theorem calculateCrc16_append_eq_zero_iff (body : List UInt8) (low high : UInt8) :
    calculateCrc16 (body ++ [low, high]) = 0 ↔
      calculateCrc16 body = (high.toUInt16 <<< 8) ||| low.toUInt16 := by
  have hbits : [low.toBitVec, high.toBitVec].flatMap bitsLE =
      bitsLE ((high.toUInt16 <<< 8) ||| low.toUInt16).toBitVec := by
    rw [toBitVec_join, bitsLE_append]
    simp
  have hzero := foldl_append_eq_zero_iff crcTaps coeff_zero_generator (by decide) 0xFFFF#16
    (body.map UInt8.toBitVec) [low.toBitVec, high.toBitVec] hbits
  rw [← UInt16.toBitVec_inj, ← UInt16.toBitVec_inj, calculateCrc16_toBitVec,
    calculateCrc16_toBitVec, List.map_append]
  exact hzero

/-- The bytes of a number are told by the number. -/
theorem crcBytes_join (low high : UInt8) :
    crcBytes ((high.toUInt16 <<< 8) ||| low.toUInt16) = [low, high] := by
  have hnat : ((high.toUInt16 <<< 8) ||| low.toUInt16).toNat = 256 * high.toNat + low.toNat := by
    have happend := congrArg BitVec.toNat (toBitVec_join low high)
    rw [BitVec.toNat_append, ← Nat.shiftLeft_add_eq_or_of_lt low.toBitVec.isLt,
      Nat.shiftLeft_eq] at happend
    have hshape : high.toBitVec.toNat * 2 ^ 8 + low.toBitVec.toNat =
        256 * high.toNat + low.toNat := by
      rw [Nat.mul_comm]
      rfl
    exact happend.trans hshape
  have hlow := low.toNat_lt
  have hhigh := high.toNat_lt
  have hfirst : ((high.toUInt16 <<< 8) ||| low.toUInt16).toUInt8 = low := by
    refine UInt8.toNat_inj.1 ?_
    rw [UInt16.toNat_toUInt8, hnat]
    omega
  have hsecond : (((high.toUInt16 <<< 8) ||| low.toUInt16) >>> 8).toUInt8 = high := by
    refine UInt8.toNat_inj.1 ?_
    rw [UInt16.toNat_toUInt8, UInt16.toNat_shiftRight, hnat, Nat.shiftRight_eq_div_pow]
    simp
    omega
  rw [crcBytes, hfirst, hsecond]

theorem crcBytes_eq_iff {crc : UInt16} {low high : UInt8} :
    [low, high] = crcBytes crc ↔ crc = (high.toUInt16 <<< 8) ||| low.toUInt16 := by
  constructor
  · intro h
    obtain ⟨hlow, hhigh⟩ : low = crc.toUInt8 ∧ high = (crc >>> 8).toUInt8 := by
      simpa [crcBytes] using h
    rw [hlow, hhigh, join_bytes]
  · rintro rfl
    exact (crcBytes_join low high).symm

/-- A sequence of two bytes or more. -/
theorem exists_last_two {data : List UInt8} (h : 2 ≤ data.length) :
    ∃ body low high, data = body ++ [low, high] := by
  have hlen : (data.drop (data.length - 2)).length = 2 := by
    rw [List.length_drop]
    omega
  obtain ⟨low, high, htail⟩ := List.length_eq_two.1 hlen
  refine ⟨data.take (data.length - 2), low, high, ?_⟩
  rw [← htail, List.take_append_drop]

/-- A frame is accepted when it is long enough, has a function code, and has the checksum zero. -/
theorem checkModbusRtuFormat_eq_zero_iff (data : List UInt8) :
    checkModbusRtuFormat data = 0 ↔
      4 ≤ data.length ∧ byteAt data 1 ∈ modbusFunctionCodes ∧ calculateCrc16 data = 0 := by
  by_cases hlen : 2 ≤ data.length
  · obtain ⟨body, low, high, rfl⟩ := exists_last_two hlen
    rw [checkModbusRtuFormat_append, calculateCrc16_append_eq_zero_iff]
  · have hshort : data.length < 4 := by omega
    rw [checkModbusRtuFormat, if_pos hshort]
    exact iff_of_false (by decide) fun h => absurd h.1 (by omega)

/-- **The frames that are accepted.**  The program's checksum is CRC-16/MODBUS; a sequence is
accepted when it has four bytes or more, its second byte is a function code, and its last two bytes
are the checksum of the others; and the last of these says that the checksum of all is zero. -/
theorem modbus_acceptance (data : List UInt8) :
    calculateCrc16 data = crc16Modbus data ∧
      (checkModbusRtuFormat data = 0 ↔
        4 ≤ data.length ∧ byteAt data 1 ∈ modbusFunctionCodes ∧
          ∃ body, data = body ++ crcBytes (crc16Modbus body)) ∧
      (checkModbusRtuFormat data = 0 ↔
        4 ≤ data.length ∧ byteAt data 1 ∈ modbusFunctionCodes ∧ crc16Modbus data = 0) := by
  refine ⟨calculateCrc16_eq data, ?_, ?_⟩
  · constructor
    · intro h
      obtain ⟨hlen, hcode, -⟩ := (checkModbusRtuFormat_eq_zero_iff data).1 h
      obtain ⟨body, low, high, rfl⟩ := exists_last_two (Nat.le_trans (by decide) hlen)
      obtain ⟨-, -, hcrc⟩ := (checkModbusRtuFormat_append body low high).1 h
      refine ⟨hlen, hcode, body, ?_⟩
      rw [← calculateCrc16_eq, ← crcBytes_eq_iff.2 hcrc]
    · rintro ⟨hlen, hcode, body, rfl⟩
      rw [← calculateCrc16_eq] at hlen hcode ⊢
      exact (checkModbusRtuFormat_append body _ _).2 ⟨hlen, hcode, crcBytes_eq_iff.1 rfl⟩
  · rw [checkModbusRtuFormat_eq_zero_iff, calculateCrc16_eq]

end Ser2mqtt

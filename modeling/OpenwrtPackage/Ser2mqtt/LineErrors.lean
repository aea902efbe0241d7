/-
**Line errors in a Modbus frame.**

Bits that are flipped on the line add a polynomial to that of the frame.  The frame is still
accepted only if the generator of the checksum divides this polynomial, which it does not do for a
burst that is not longer than the checksum, for an odd number of bits, and for two bits in a frame
of ordinary length: its powers of `X` repeat only later.

* `Ser2mqtt.flipBits` — a frame with some of its bits flipped;
* `Ser2mqtt.dvd_of_accepted` — the errors of a frame that is still accepted;
* `Ser2mqtt.not_dvd_X_pow_add_one` — the generator does not repeat within 2040 bits;
* `Ser2mqtt.lineErrors_rejected` — **a frame with such errors is rejected**.
-/
import OpenwrtPackage.Ser2mqtt.Crc

set_option relaxedAutoImplicit false
set_option autoImplicit false

namespace Ser2mqtt

open Bytes BitPoly Crc Polynomial

/-! ### Flipped bits -/

/-- The frame `f` with the bits flipped that are set in `e`. -/
def flipBits (f e : List UInt8) : List UInt8 := List.zipWith (· ^^^ ·) f e

theorem transmitted_length (data : List UInt8) : (transmitted data).length = 8 * data.length := by
  induction data with
  | nil => rfl
  | cons b data ih =>
      rw [transmitted, List.flatMap_cons, List.length_append, bitsLE_length, ← transmitted, ih,
        List.length_cons]
      omega

theorem transmitted_flipBits {f e : List UInt8} (h : e.length = f.length) :
    transmitted (flipBits f e) = List.zipWith xor (transmitted f) (transmitted e) := by
  induction f generalizing e with
  | nil => rfl
  | cons b f ih =>
      cases e with
      | nil => simp at h
      | cons c e =>
          have htail : transmitted (flipBits f e) =
              List.zipWith xor (transmitted f) (transmitted e) := ih (Nat.succ.inj h)
          have hhead : bitsLE (b ^^^ c).toBitVec =
              List.zipWith xor (bitsLE b.toBitVec) (bitsLE c.toBitVec) := bitsLE_xor _ _
          rw [transmitted, transmitted, transmitted, List.flatMap_cons, List.flatMap_cons,
            List.zipWith_append (by simp), ← hhead]
          exact congrArg (_ ++ ·) htail

/-- A byte that is not zero has a bit. -/
theorem true_mem_bitsLE {b : UInt8} (h : b ≠ 0) : true ∈ bitsLE b.toBitVec := by
  by_contra hnone
  refine h (UInt8.toBitVec_inj.1 (BitVec.eq_of_getLsbD_eq fun i hi => ?_))
  have hbit : b.toBitVec.getLsbD i ∈ bitsLE b.toBitVec :=
    List.mem_map.2 ⟨i, List.mem_range.2 hi, rfl⟩
  cases hvalue : b.toBitVec.getLsbD i with
  | false => simp
  | true =>
      rw [hvalue] at hbit
      exact absurd hbit hnone

theorem true_mem_transmitted {e : List UInt8} (h : ∃ b ∈ e, b ≠ 0) : true ∈ transmitted e := by
  obtain ⟨b, hmem, hb⟩ := h
  exact List.mem_flatMap.2 ⟨b, hmem, true_mem_bitsLE hb⟩

/-! ### Errors that are not seen -/

theorem remainder_eq_zero {data : List UInt8} (h : calculateCrc16 data = 0) :
    remainder crcTaps 0xFFFF#16 (transmitted data) = 0 := by
  rw [← flatMap_bitsLE, ← register_foldl crcTaps (by decide), ← calculateCrc16_toBitVec, h]
  exact register_zero

/-- The generator divides the errors of a frame that is accepted with and without them. -/
theorem dvd_of_accepted {f e : List UInt8} (hlen : e.length = f.length)
    (hf : checkModbusRtuFormat f = 0) (he : checkModbusRtuFormat (flipBits f e) = 0) :
    generator crcTaps ∣ ofBits (transmitted e) := by
  have hbits : (transmitted f).length = (transmitted e).length := by
    rw [transmitted_length, transmitted_length, hlen]
  have hframe := remainder_eq_zero ((checkModbusRtuFormat_eq_zero_iff f).1 hf).2.2
  have herror := remainder_eq_zero ((checkModbusRtuFormat_eq_zero_iff _).1 he).2.2
  rw [transmitted_flipBits hlen] at herror
  exact dvd_of_undetected crcTaps coeff_zero_generator hbits hframe herror

/-! ### Where the generator repeats -/

/-- One shift of the register, as a number. -/
def shiftNat (r : ℕ) : ℕ := if r % 2 = 1 then r / 2 ^^^ 0xA001 else r / 2

theorem toNat_step (v : BitVec 16) : (step crcTaps v).toNat = shiftNat v.toNat := by
  have hbit : v.getLsbD 0 = decide (v.toNat % 2 = 1) := by
    rw [BitVec.getLsbD, Nat.testBit_zero]
  have hshift : (v >>> 1).toNat = v.toNat / 2 := by
    rw [BitVec.toNat_ushiftRight, Nat.shiftRight_eq_div_pow]
  rw [step, shiftNat, hbit]
  by_cases hodd : v.toNat % 2 = 1
  · rw [if_pos (decide_eq_true hodd), if_pos hodd, BitVec.toNat_xor, hshift]
    rfl
  · rw [if_neg (by simpa using hodd), if_neg hodd, hshift]

/-- The register is not at `start` after one shift, nor after any of the `n` first. -/
def avoids (start : ℕ) : ℕ → ℕ → Bool
  | 0, _ => true
  | n + 1, r =>
      -- the next register is compared with zero, so that it is a number before it goes on
      match shiftNat r with
      | 0 => false
      | s + 1 => s + 1 != start && avoids start n (s + 1)

theorem ne_of_avoids {start n : ℕ} {v : BitVec 16} (h : avoids start n v.toNat = true) {k : ℕ}
    (hk : k < n) : ((step crcTaps)^[k + 1] v).toNat ≠ start := by
  induction n generalizing v k with
  | zero => exact absurd hk (Nat.not_lt_zero k)
  | succ n ih =>
      rw [avoids] at h
      cases hnext : shiftNat v.toNat with
      | zero => simp [hnext] at h
      | succ s =>
          rw [hnext] at h
          obtain ⟨hne, hrest⟩ := Bool.and_eq_true_iff.1 h
          have hstep : (step crcTaps v).toNat = s + 1 := (toNat_step v).trans hnext
          cases k with
          | zero =>
              rw [Function.iterate_one, hstep]
              exact bne_iff_ne.1 hne
          | succ k =>
              rw [Function.iterate_succ_apply]
              exact ih (by rw [hstep]; exact hrest) (Nat.lt_of_succ_lt_succ hk)

/-- The generator does not repeat within the longest frame. -/
theorem not_dvd_X_pow_add_one {k : ℕ} (hpos : 0 < k) (hk : k < 2040) :
    ¬ generator crcTaps ∣ X ^ k + 1 := by
  intro hdvd
  have hback : (step crcTaps)^[k] 1#16 = 1#16 := iterate_of_dvd crcTaps hdvd 1#16
  have hrun : avoids 1 2039 (1#16).toNat = true := by decide +kernel
  obtain ⟨m, rfl⟩ := Nat.exists_eq_succ_of_ne_zero hpos.ne'
  exact ne_of_avoids hrun (by omega) (congrArg BitVec.toNat hback)

theorem degree_generator_crcTaps : (generator crcTaps).degree = ((16 : ℕ) : WithBot ℕ) :=
  degree_generator crcTaps

theorem eval_one_generator : (generator crcTaps).eval 1 = 0 := by
  rw [generator_crcTaps, modbusGenerator]
  simp only [eval_add, eval_pow, eval_X, eval_one, one_pow]
  decide

/-! ### Errors that are seen -/

theorem checkModbusRtuFormat_ne_zero {data : List UInt8} (h : checkModbusRtuFormat data ≠ 0) :
    checkModbusRtuFormat data = -1 := by
  unfold checkModbusRtuFormat at h ⊢
  dsimp only at h ⊢
  split at h
  · rw [if_pos ‹_›]
  · rw [if_neg ‹_›]
    split at h
    · rw [if_pos ‹_›]
    · rw [if_neg ‹_›]
      split at h
      · rw [if_pos ‹_›]
      · exact absurd rfl h

/-- **A frame with such errors is rejected**: a burst of at most 16 bits, two bits, or an odd number
of bits. -/
theorem lineErrors_rejected {f e : List UInt8} (hf : checkModbusRtuFormat f = 0)
    (hlength : f.length ≤ 255) (hlen : e.length = f.length) (hne : ∃ b ∈ e, b ≠ 0)
    (h : Burst 16 (transmitted e) ∨ (transmitted e).count true = 2 ∨
      (transmitted e).count true % 2 = 1) : checkModbusRtuFormat (flipBits f e) = -1 := by
  refine checkModbusRtuFormat_ne_zero fun he => ?_
  have hdvd := dvd_of_accepted hlen hf he
  rcases h with hburst | htwo | hodd
  · exact not_dvd_of_burst coeff_zero_generator degree_generator_crcTaps
      (true_mem_transmitted hne) hburst hdvd
  · have hbits : (transmitted e).length ≤ 2040 := by
      rw [transmitted_length]
      omega
    exact not_dvd_of_two coeff_zero_generator (fun k => not_dvd_X_pow_add_one) hbits htwo hdvd
  · exact not_dvd_of_odd eval_one_generator hodd hdvd

/-- Two bits of a frame that reads one register. -/
theorem lineErrors_rejected_two :
    checkModbusRtuFormat (flipBits [0x01, 0x03, 0x00, 0x00, 0x00, 0x01, 0x84, 0x0A]
      [0x00, 0x00, 0x80, 0x00, 0x00, 0x00, 0x00, 0x01]) = -1 :=
  lineErrors_rejected (by decide +kernel) (by decide) rfl ⟨0x80, by decide, by decide⟩
    (Or.inr (Or.inl (by decide)))

end Ser2mqtt

/-
**Bits as polynomials over the field of two elements.**

A row of bits is sent one after the other; as a polynomial the bit that is sent first has the
highest power.

* `BitPoly.ofBits` — the polynomial of a row of bits;
* `BitPoly.ofBits_append`, `BitPoly.ofBits_xor` — rows behind each other, and on top of each other;
* `BitPoly.coeff_ofBits` — its coefficients, and `BitPoly.ofBits_inj`;
* `BitPoly.eval_one_ofBits` — its value at 1 is the parity of the row;
* `BitPoly.ofBits_of_count_two` — two bits;
* `BitPoly.bitsLE` — the bits of a word, the least significant one first;
* `BitPoly.word` — the word of a polynomial, and `BitPoly.word_ofBits`.
-/
import Mathlib.Algebra.CharP.Two
import Mathlib.Algebra.Field.ZMod
import Mathlib.Algebra.Polynomial.Degree.Operations
import Mathlib.Algebra.Polynomial.Eval.Degree
import Mathlib.Data.List.GetD

set_option relaxedAutoImplicit false
set_option autoImplicit false

namespace BitPoly

open Polynomial

/-- The coefficient of a bit. -/
def ofBool (b : Bool) : ZMod 2 := if b then 1 else 0

/-- The polynomial of a row of bits, whose first bit has the highest power. -/
noncomputable def ofBits : List Bool → (ZMod 2)[X]
  | [] => 0
  | b :: bs => C (ofBool b) * X ^ bs.length + ofBits bs

@[simp] theorem ofBits_nil : ofBits [] = 0 := rfl

theorem ofBits_cons (b : Bool) (bs : List Bool) :
    ofBits (b :: bs) = C (ofBool b) * X ^ bs.length + ofBits bs := rfl

@[simp] theorem ofBool_false : ofBool false = 0 := rfl

@[simp] theorem ofBool_true : ofBool true = 1 := rfl

theorem ofBool_xor (a b : Bool) : ofBool (a ^^ b) = ofBool a + ofBool b := by
  cases a <;> cases b <;> decide

theorem ofBool_inj {a b : Bool} : ofBool a = ofBool b ↔ a = b := by
  cases a <;> cases b <;> decide

/-! ### Rows of bits -/

theorem ofBits_append (as bs : List Bool) :
    ofBits (as ++ bs) = X ^ bs.length * ofBits as + ofBits bs := by
  induction as with
  | nil => simp
  | cons a as ih =>
      rw [List.cons_append, ofBits_cons, ofBits_cons, ih, List.length_append]
      ring

@[simp] theorem ofBits_replicate_false (n : ℕ) : ofBits (List.replicate n false) = 0 := by
  induction n with
  | zero => rfl
  | succ n ih => rw [List.replicate_succ, ofBits_cons, ih, ofBool_false, C_0, zero_mul, add_zero]

theorem ofBits_xor {as bs : List Bool} (h : as.length = bs.length) :
    ofBits (List.zipWith xor as bs) = ofBits as + ofBits bs := by
  induction as generalizing bs with
  | nil =>
      rw [List.eq_nil_of_length_eq_zero h.symm]
      simp
  | cons a as ih =>
      cases bs with
      | nil => simp at h
      | cons b bs =>
          have htail : as.length = bs.length := Nat.succ.inj h
          have hlen : (List.zipWith xor as bs).length = as.length := by simp [htail]
          rw [List.zipWith_cons_cons, ofBits_cons, ofBits_cons, ofBits_cons, ih htail, hlen,
            ofBool_xor, C_add, ← htail]
          ring

theorem degree_ofBits_lt (bs : List Bool) : (ofBits bs).degree < (bs.length : WithBot ℕ) := by
  induction bs with
  | nil =>
      rw [ofBits_nil, degree_zero]
      exact WithBot.bot_lt_coe _
  | cons b bs ih =>
      have hlt : (bs.length : WithBot ℕ) < ((b :: bs).length : WithBot ℕ) :=
        WithBot.coe_lt_coe.2 (Nat.lt_succ_self _)
      rw [ofBits_cons]
      exact (degree_add_le _ _).trans_lt
        (max_lt ((degree_C_mul_X_pow_le _ _).trans_lt hlt) (ih.trans hlt))

theorem coeff_ofBits (bs : List Bool) (i : ℕ) :
    (ofBits bs).coeff i = ofBool (bs.reverse.getD i false) := by
  induction bs with
  | nil => simp
  | cons b bs ih =>
      rw [ofBits_cons, coeff_add, coeff_C_mul_X_pow, ih, List.reverse_cons]
      rcases lt_trichotomy i bs.length with hlt | heq | hgt
      · rw [if_neg hlt.ne, zero_add, List.getD_append _ _ _ _ (by simpa using hlt)]
      · rw [if_pos heq, List.getD_append_right _ _ _ _ (by simp [heq]),
          List.getD_eq_default _ _ (by simp [heq])]
        simp [heq]
      · rw [if_neg hgt.ne', zero_add, List.getD_eq_default _ _ (by simpa using hgt.le),
          List.getD_eq_default _ _ (by simpa using hgt)]

theorem ofBits_inj {as bs : List Bool} (hlen : as.length = bs.length)
    (h : ofBits as = ofBits bs) : as = bs := by
  have hbits : ∀ i, as.reverse.getD i false = bs.reverse.getD i false := fun i =>
    ofBool_inj.1 (by rw [← coeff_ofBits, ← coeff_ofBits, h])
  refine List.reverse_injective (List.ext_getElem (by simpa using hlen) fun i hi hi' => ?_)
  rw [← List.getD_eq_getElem _ false hi, ← List.getD_eq_getElem _ false hi']
  exact hbits i

/-- The polynomial of a row is zero only when no bit is set. -/
theorem ofBits_eq_zero {bs : List Bool} (h : ofBits bs = 0) : true ∉ bs := by
  have hzero : bs = List.replicate bs.length false :=
    ofBits_inj (by simp) (by rw [h, ofBits_replicate_false])
  rw [hzero]
  simp

/-- The value at 1 is the parity of the row. -/
theorem eval_one_ofBits (bs : List Bool) : (ofBits bs).eval 1 = (bs.count true : ZMod 2) := by
  induction bs with
  | nil => simp
  | cons b bs ih =>
      rw [ofBits_cons, eval_add, ih]
      cases b with
      | false => simp
      | true =>
          rw [List.count_cons_self]
          simp [add_comm]

/-! ### One and two bits -/

theorem ofBits_of_count_zero {bs : List Bool} (h : bs.count true = 0) : ofBits bs = 0 := by
  induction bs with
  | nil => rfl
  | cons b bs ih =>
      cases b with
      | false =>
          rw [ofBits_cons, ih (by simpa using h)]
          simp
      | true => simp at h

theorem ofBits_of_count_one {bs : List Bool} (h : bs.count true = 1) :
    ∃ i < bs.length, ofBits bs = X ^ i := by
  induction bs with
  | nil => simp at h
  | cons b bs ih =>
      cases b with
      | false =>
          obtain ⟨i, hi, hpow⟩ := ih (by simpa using h)
          exact ⟨i, Nat.lt_succ_of_lt hi, by rw [ofBits_cons, hpow]; simp⟩
      | true =>
          have hnone : bs.count true = 0 := by simpa using h
          exact ⟨bs.length, Nat.lt_succ_self _, by
            rw [ofBits_cons, ofBits_of_count_zero hnone]; simp⟩

/-- A row with two bits. -/
theorem ofBits_of_count_two {bs : List Bool} (h : bs.count true = 2) :
    ∃ i j, i < j ∧ j < bs.length ∧ ofBits bs = X ^ j + X ^ i := by
  induction bs with
  | nil => simp at h
  | cons b bs ih =>
      cases b with
      | false =>
          obtain ⟨i, j, hij, hj, hpow⟩ := ih (by simpa using h)
          exact ⟨i, j, hij, Nat.lt_succ_of_lt hj, by rw [ofBits_cons, hpow]; simp⟩
      | true =>
          have hone : bs.count true = 1 := by simpa using h
          obtain ⟨i, hi, hpow⟩ := ofBits_of_count_one hone
          exact ⟨i, bs.length, hi, Nat.lt_succ_self _, by rw [ofBits_cons, hpow]; simp⟩

/-! ### The bits of a word -/

section

variable {w : ℕ}

/-- The bits of a word, the least significant one first. -/
def bitsLE (v : BitVec w) : List Bool := (List.range w).map fun i => v.getLsbD i

@[simp] theorem bitsLE_length (v : BitVec w) : (bitsLE v).length = w := by simp [bitsLE]

theorem bitsLE_xor (u v : BitVec w) :
    bitsLE (u ^^^ v) = List.zipWith xor (bitsLE u) (bitsLE v) := by
  refine List.ext_getElem (by simp) fun i hi hi' => ?_
  simp [bitsLE]

theorem bitsLE_inj {u v : BitVec w} (h : bitsLE u = bitsLE v) : u = v := by
  refine BitVec.eq_of_getLsbD_eq fun i hi => ?_
  have hbit := congrArg (fun bs : List Bool => bs.getD i false) h
  simpa [bitsLE, hi] using hbit

/-- A shift to the right lets the first bit go. -/
theorem bitsLE_shift (v : BitVec w) :
    bitsLE v ++ [false] = v.getLsbD 0 :: bitsLE (v >>> 1) := by
  have hlast : bitsLE v ++ [false] = (List.range (w + 1)).map fun i => v.getLsbD i := by
    rw [List.range_succ, List.map_append]
    simp [bitsLE]
  rw [hlast, List.range_succ_eq_map, List.map_cons, List.map_map, bitsLE]
  congr 1
  refine List.map_congr_left fun i _ => ?_
  simp [Nat.add_comm]

theorem bitsLE_setWidth {n : ℕ} (h : n ≤ w) (b : BitVec n) :
    bitsLE (b.setWidth w) = bitsLE b ++ List.replicate (w - n) false := by
  refine List.ext_getElem (by simp; omega) fun i hi hi' => ?_
  have hw : i < w := by simpa using hi
  by_cases hn : i < n
  · simp [bitsLE, hn, hw]
  · simp [bitsLE, List.getElem_append, hn, hw, BitVec.getLsbD_of_ge b i (by omega)]

/-- The bits of a word that is put together from two. -/
theorem bitsLE_append {n : ℕ} (u : BitVec w) (v : BitVec n) :
    bitsLE (u ++ v) = bitsLE v ++ bitsLE u := by
  refine List.ext_getElem (by simp; omega) fun i hi hi' => ?_
  by_cases hn : i < n
  · simp [bitsLE, BitVec.getLsbD_append, hn]
  · simp [bitsLE, BitVec.getLsbD_append, List.getElem_append, hn]

/-- The word whose bits are the first `w` coefficients, with the highest power at the least
significant bit. -/
noncomputable def word (w : ℕ) (p : (ZMod 2)[X]) : BitVec w :=
  (BitVec.ofBoolListLE ((List.range w).map fun k => decide (p.coeff (w - 1 - k) = 1))).setWidth w

theorem ofBool_eq_one (b : Bool) : decide (ofBool b = 1) = b := by
  cases b <;> decide

theorem word_ofBits (v : BitVec w) : word w (ofBits (bitsLE v)) = v := by
  refine BitVec.eq_of_getLsbD_eq fun i hi => ?_
  have hcoeff : (ofBits (bitsLE v)).coeff (w - 1 - i) = ofBool (v.getLsbD i) := by
    have hplace : w - 1 - (w - 1 - i) = i := by omega
    rw [coeff_ofBits, List.getD_reverse _ (by simp; omega), bitsLE_length, hplace]
    simp [bitsLE, hi]
  rw [word, BitVec.getLsbD_setWidth, BitVec.getLsbD_ofBoolListLE,
    List.getD_eq_getElem _ _ (by simpa using hi), List.getElem_map, List.getElem_range, hcoeff,
    ofBool_eq_one]
  simp [hi]

end

end BitPoly

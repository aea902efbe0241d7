/-
**Cyclic redundancy checks.**

A register of `w` bits is shifted to the right, bit by bit, and when a bit falls out at its end a
constant is added to it.  Seen as a polynomial over the field of two elements, with the bit that
falls out next at the highest power, the register is multiplied by `X` modulo a generator.

* `Crc.step`, `Crc.absorb` — one shift, and the shifts for one word of a message;
* `Crc.register`, `Crc.generator` — the polynomials of a register and of the constant;
* `Crc.register_step` — **a shift multiplies by `X`**;
* `Crc.remainder`, `Crc.register_foldl` — **what is left in the register is a remainder**;
* `Crc.dvd_of_undetected` — the generator divides an error that the register does not show;
* `Crc.not_dvd_of_burst`, `Crc.not_dvd_of_two`, `Crc.not_dvd_of_odd` — **errors that it does not
  divide**.
-/
import Mathlib.RingTheory.AdjoinRoot
import OpenwrtPackage.Lib.BitPoly

set_option relaxedAutoImplicit false
set_option autoImplicit false

namespace Crc

open Polynomial BitPoly

/-! ### The register -/

section

variable {w : ℕ} (taps : BitVec w)

/-- One shift of the register. -/
def step (v : BitVec w) : BitVec w := if v.getLsbD 0 then (v >>> 1) ^^^ taps else v >>> 1

/-- A word of the message is added to the register, which is shifted once for each of its bits. -/
def absorb {n : ℕ} (v : BitVec w) (b : BitVec n) : BitVec w := (step taps)^[n] (v ^^^ b.setWidth w)

/-- The polynomial of a register. -/
noncomputable def register (v : BitVec w) : (ZMod 2)[X] := ofBits (bitsLE v)

/-- The generator that belongs to the constant. -/
noncomputable def generator : (ZMod 2)[X] := X ^ w + register taps

/-- The remainder that a message leaves when the register begins with `init`. -/
noncomputable def remainder (init : BitVec w) (bits : List Bool) : (ZMod 2)[X] :=
  (X ^ bits.length * register init + X ^ w * ofBits bits) %ₘ generator taps

theorem degree_register_lt (v : BitVec w) : (register v).degree < (w : WithBot ℕ) := by
  have h := degree_ofBits_lt (bitsLE v)
  rwa [bitsLE_length] at h

theorem register_xor (u v : BitVec w) : register (u ^^^ v) = register u + register v := by
  rw [register, bitsLE_xor, ofBits_xor (by simp)]
  rfl

theorem register_inj {u v : BitVec w} (h : register u = register v) : u = v :=
  bitsLE_inj (ofBits_inj (by simp) h)

@[simp] theorem register_zero : register (0 : BitVec w) = 0 := by
  have hzero : bitsLE (0 : BitVec w) = List.replicate w false := by
    refine List.ext_getElem (by simp) fun i hi hi' => ?_
    simp [bitsLE]
  rw [register, hzero, ofBits_replicate_false]

theorem register_setWidth {n : ℕ} (h : n ≤ w) (b : BitVec n) :
    register (b.setWidth w) = X ^ (w - n) * ofBits (bitsLE b) := by
  rw [register, bitsLE_setWidth h, ofBits_append, List.length_replicate, ofBits_replicate_false,
    add_zero]

theorem monic_generator : (generator taps).Monic := monic_X_pow_add (degree_register_lt taps)

theorem degree_generator : (generator taps).degree = (w : WithBot ℕ) := by
  rw [generator, degree_add_eq_left_of_degree_lt, degree_X_pow]
  rw [degree_X_pow]
  exact degree_register_lt taps

/-- The register before the constant is added to it. -/
theorem register_shift (v : BitVec w) :
    X * register v = C (ofBool (v.getLsbD 0)) * X ^ w + register (v >>> 1) := by
  have h := congrArg ofBits (bitsLE_shift v)
  rw [ofBits_append, ofBits_cons (v.getLsbD 0), bitsLE_length] at h
  simpa [ofBits_cons, register] using h

/-- **A shift multiplies by `X`**, up to a multiple of the generator. -/
theorem register_step (v : BitVec w) :
    register (step taps v) =
      X * register v + C (ofBool (v.getLsbD 0)) * generator taps := by
  have hshift := register_shift v
  rw [step]
  cases hbit : v.getLsbD 0 with
  | false =>
      rw [hbit] at hshift
      simpa using hshift.symm
  | true =>
      rw [hbit, ofBool_true, C_1, one_mul] at hshift
      rw [if_pos rfl, register_xor, hshift, generator, ofBool_true, C_1, one_mul]
      linear_combination (-(X ^ w : (ZMod 2)[X])) * CharTwo.two_eq_zero (R := (ZMod 2)[X])

/-! ### Modulo the generator -/

/-- A polynomial modulo the generator. -/
noncomputable def residue : (ZMod 2)[X] →+* AdjoinRoot (generator taps) :=
  AdjoinRoot.mk (generator taps)

theorem residue_eq_zero {p : (ZMod 2)[X]} : residue taps p = 0 ↔ generator taps ∣ p :=
  AdjoinRoot.mk_eq_zero

/-- Below its degree a polynomial is told by its residue. -/
theorem eq_of_residue_eq {p q : (ZMod 2)[X]} (hp : p.degree < (w : WithBot ℕ))
    (hq : q.degree < (w : WithBot ℕ)) (h : residue taps p = residue taps q) : p = q := by
  have hdvd : generator taps ∣ p - q := AdjoinRoot.mk_eq_mk.1 h
  refine sub_eq_zero.1 (eq_zero_of_dvd_of_degree_lt hdvd ?_)
  rw [degree_generator]
  exact (degree_sub_le p q).trans_lt (max_lt hp hq)

theorem residue_modByMonic (p : (ZMod 2)[X]) :
    residue taps (p %ₘ generator taps) = residue taps p := by
  refine AdjoinRoot.mk_eq_mk.2 ⟨-(p /ₘ generator taps), ?_⟩
  linear_combination modByMonic_add_div p (generator taps)

theorem residue_step (v : BitVec w) :
    residue taps (register (step taps v)) = residue taps X * residue taps (register v) := by
  have hgenerator : residue taps (generator taps) = 0 := (residue_eq_zero taps).2 dvd_rfl
  rw [register_step, map_add, map_mul, map_mul, hgenerator, mul_zero, add_zero]

theorem residue_iterate (k : ℕ) (v : BitVec w) :
    residue taps (register ((step taps)^[k] v)) =
      residue taps X ^ k * residue taps (register v) := by
  induction k with
  | zero => simp
  | succ k ih =>
      rw [Function.iterate_succ_apply', residue_step, ih]
      ring

theorem residue_absorb {n : ℕ} (h : n ≤ w) (v : BitVec w) (b : BitVec n) :
    residue taps (register (absorb taps v b)) =
      residue taps (X ^ n * register v + X ^ w * ofBits (bitsLE b)) := by
  have hpow : (X ^ w : (ZMod 2)[X]) = X ^ n * X ^ (w - n) := by
    rw [← pow_add, Nat.add_sub_cancel' h]
  rw [absorb, residue_iterate, register_xor, register_setWidth h, hpow]
  simp only [map_add, map_mul, map_pow]
  ring

/-- The register behind a message, word after word. -/
theorem residue_foldl {n : ℕ} (h : n ≤ w) (v : BitVec w) (ms : List (BitVec n)) :
    residue taps (register (ms.foldl (absorb taps) v)) =
      residue taps (X ^ (ms.flatMap bitsLE).length * register v +
        X ^ w * ofBits (ms.flatMap bitsLE)) := by
  induction ms generalizing v with
  | nil => simp
  | cons m ms ih =>
      rw [List.foldl_cons, ih, List.flatMap_cons, ofBits_append, List.length_append, bitsLE_length]
      have habsorb := residue_absorb taps h v m
      simp only [map_add, map_mul, map_pow] at habsorb ⊢
      rw [habsorb]
      ring

/-- **What is left in the register is the remainder of the message.** -/
theorem register_foldl {n : ℕ} (h : n ≤ w) (init : BitVec w) (ms : List (BitVec n)) :
    register (ms.foldl (absorb taps) init) = remainder taps init (ms.flatMap bitsLE) := by
  refine eq_of_residue_eq taps (degree_register_lt _) ?_ ?_
  · rw [remainder, ← degree_generator taps]
    exact degree_modByMonic_lt _ (monic_generator taps)
  · rw [residue_foldl taps h, remainder, residue_modByMonic]

/-! ### A message with its checksum -/

/-- A generator that is not a multiple of `X` has no factor with a power of `X` in common. -/
theorem dvd_of_dvd_X_pow_mul {g p : (ZMod 2)[X]} (hg : g.coeff 0 ≠ 0) {k : ℕ}
    (h : g ∣ X ^ k * p) : g ∣ p := by
  have hX : ¬ X ∣ g := fun hdvd => hg (X_dvd_iff.1 hdvd)
  have hcoprime : IsCoprime X g := irreducible_X.coprime_iff_not_dvd.2 hX
  exact hcoprime.symm.pow_right.dvd_of_dvd_mul_left h

/-- **The register is empty behind a message and a checksum exactly when the checksum is what the
message has left in it.** -/
theorem foldl_append_eq_zero_iff (hg : (generator taps).coeff 0 ≠ 0) {n : ℕ} (h : n ≤ w)
    (init : BitVec w) (ms cs : List (BitVec n)) {u : BitVec w}
    (hu : cs.flatMap bitsLE = bitsLE u) :
    (ms ++ cs).foldl (absorb taps) init = 0 ↔ ms.foldl (absorb taps) init = u := by
  rw [List.foldl_append]
  generalize ms.foldl (absorb taps) init = v
  -- Modulo the generator the checksum cancels what agrees with it in the register, and what is
  -- left of the difference is moved up by the width.
  have hresidue : residue taps (register (cs.foldl (absorb taps) v)) =
      residue taps (X ^ w * register (v ^^^ u)) := by
    rw [residue_foldl taps h, hu, bitsLE_length, register_xor, mul_add]
    rfl
  constructor
  · intro hzero
    rw [hzero, register_zero, map_zero] at hresidue
    -- The generator has no factor `X`, so it would divide the difference, whose degree is smaller.
    have hdvd := dvd_of_dvd_X_pow_mul hg ((residue_eq_zero taps).1 hresidue.symm)
    have hregister : register (v ^^^ u) = 0 := by
      refine eq_zero_of_dvd_of_degree_lt hdvd ?_
      rw [degree_generator]
      exact degree_register_lt _
    have hxor : v ^^^ u = 0 := register_inj (hregister.trans register_zero.symm)
    exact BitVec.xor_eq_zero_iff.1 hxor
  · rintro rfl
    have hempty : register (v ^^^ v) = 0 := by
      rw [BitVec.xor_self]
      exact register_zero
    refine register_inj (eq_of_residue_eq taps (degree_register_lt _) (degree_register_lt _) ?_)
    rw [hresidue, hempty, mul_zero, register_zero]

/-! ### Errors -/

theorem remainder_eq_zero_iff (init : BitVec w) (bits : List Bool) :
    remainder taps init bits = 0 ↔
      generator taps ∣ X ^ bits.length * register init + X ^ w * ofBits bits :=
  modByMonic_eq_zero_iff_dvd (monic_generator taps)

/-- The generator divides an error that leaves the remainder at zero. -/
theorem dvd_of_undetected (hg : (generator taps).coeff 0 ≠ 0) {init : BitVec w}
    {bits errors : List Bool} (hlen : bits.length = errors.length)
    (hbits : remainder taps init bits = 0)
    (herror : remainder taps init (List.zipWith xor bits errors) = 0) :
    generator taps ∣ ofBits errors := by
  rw [remainder_eq_zero_iff] at hbits herror
  rw [ofBits_xor hlen, List.length_zipWith, ← hlen, Nat.min_self] at herror
  refine dvd_of_dvd_X_pow_mul hg (k := w) ?_
  have hsub := dvd_sub herror hbits
  have heq : X ^ bits.length * register init + X ^ w * (ofBits bits + ofBits errors) -
      (X ^ bits.length * register init + X ^ w * ofBits bits) = X ^ w * ofBits errors := by
    ring
  rwa [heq] at hsub

end

/-- All errors lie within `n` consecutive bits. -/
def Burst (n : ℕ) (errors : List Bool) : Prop :=
  ∃ s, ∀ i, errors.getD i false = true → s ≤ i ∧ i < s + n

theorem ofBits_eq_zero_of_forall {bs : List Bool} (h : ∀ i, bs.getD i false = false) :
    ofBits bs = 0 := by
  have hall : bs = List.replicate bs.length false := by
    refine List.ext_getElem (by simp) fun i hi hi' => ?_
    rw [← List.getD_eq_getElem _ false hi, h]
    simp
  rw [hall, ofBits_replicate_false]

/-- A burst is a short polynomial times a power of `X`. -/
theorem exists_of_burst {n : ℕ} {errors : List Bool} (h : Burst n errors) :
    ∃ (middle : List Bool) (k : ℕ), middle.length ≤ n ∧ ofBits errors = X ^ k * ofBits middle := by
  obtain ⟨s, hs⟩ := h
  -- In front of the burst and behind it the error is zero: only the `n` bits from `s` count, and
  -- the bits behind them are the power of `X`.
  have hfront : ofBits (errors.take s) = 0 := by
    refine ofBits_eq_zero_of_forall fun i => ?_
    by_cases hi : i < s
    · have hget : (errors.take s).getD i false = errors.getD i false := by
        simp [List.getD_eq_getElem?_getD, List.getElem?_take_of_lt hi]
      rw [hget]
      exact Bool.eq_false_iff.2 fun hbit => absurd (hs i hbit).1 (not_le.2 hi)
    · exact List.getD_eq_default _ _ (by simp; omega)
  have hback : ofBits (errors.drop (s + n)) = 0 := by
    refine ofBits_eq_zero_of_forall fun i => ?_
    have hget : (errors.drop (s + n)).getD i false = errors.getD (s + n + i) false := by
      simp [List.getD_eq_getElem?_getD]
    rw [hget]
    exact Bool.eq_false_iff.2 fun hbit => absurd (hs _ hbit).2 (by omega)
  have hsplit : errors = errors.take s ++ ((errors.drop s).take n ++ errors.drop (s + n)) := by
    rw [← List.drop_drop, List.take_append_drop, List.take_append_drop]
  refine ⟨(errors.drop s).take n, (errors.drop (s + n)).length, by simp, ?_⟩
  have hbits := congrArg ofBits hsplit
  rw [ofBits_append, ofBits_append, hfront, hback] at hbits
  simpa using hbits

/-- **A burst that is not longer than the register is detected.** -/
theorem not_dvd_of_burst {g : (ZMod 2)[X]} (hg : g.coeff 0 ≠ 0) {n : ℕ}
    (hdegree : g.degree = (n : WithBot ℕ)) {errors : List Bool} (hne : true ∈ errors)
    (h : Burst n errors) : ¬ g ∣ ofBits errors := by
  intro hdvd
  obtain ⟨middle, k, hlen, heq⟩ := exists_of_burst h
  rw [heq] at hdvd
  have hmiddle : g ∣ ofBits middle := dvd_of_dvd_X_pow_mul hg hdvd
  have hlt : (ofBits middle).degree < g.degree := by
    rw [hdegree]
    exact (degree_ofBits_lt middle).trans_le (by exact_mod_cast hlen)
  have hzero : ofBits middle = 0 := eq_zero_of_dvd_of_degree_lt hmiddle hlt
  rw [hzero, mul_zero] at heq
  exact ofBits_eq_zero heq hne

/-- **Two errors are detected** unless their distance is one at which the generator repeats. -/
theorem not_dvd_of_two {g : (ZMod 2)[X]} (hg : g.coeff 0 ≠ 0) {n : ℕ}
    (horder : ∀ k, 0 < k → k < n → ¬ g ∣ X ^ k + 1) {errors : List Bool} (hlen : errors.length ≤ n)
    (h : errors.count true = 2) : ¬ g ∣ ofBits errors := by
  intro hdvd
  obtain ⟨i, j, hij, hj, heq⟩ := ofBits_of_count_two h
  have hfactor : (X ^ j + X ^ i : (ZMod 2)[X]) = X ^ i * (X ^ (j - i) + 1) := by
    rw [mul_add, ← pow_add, Nat.add_sub_cancel' hij.le, mul_one]
  rw [heq, hfactor] at hdvd
  exact horder (j - i) (by omega) (by omega) (dvd_of_dvd_X_pow_mul hg hdvd)

/-- **An odd number of errors is detected** when the generator has the factor `X + 1`. -/
theorem not_dvd_of_odd {g : (ZMod 2)[X]} (hg : g.eval 1 = 0) {errors : List Bool}
    (h : errors.count true % 2 = 1) : ¬ g ∣ ofBits errors := by
  rintro ⟨q, hq⟩
  have heval := congrArg (Polynomial.eval 1) hq
  rw [eval_mul, hg, zero_mul, eval_one_ofBits, ZMod.natCast_eq_zero_iff] at heval
  omega

/-! ### Where the generator repeats -/

/-- When the generator divides `X ^ k + 1`, every register comes back to where it was. -/
theorem iterate_of_dvd {w : ℕ} (taps : BitVec w) {k : ℕ} (h : generator taps ∣ X ^ k + 1)
    (v : BitVec w) : (step taps)^[k] v = v := by
  have hpow : residue taps X ^ k = 1 := by
    have hzero := (residue_eq_zero taps).2 h
    rw [map_add, map_pow, map_one] at hzero
    have htwo : (1 : AdjoinRoot (generator taps)) + 1 = 0 := by
      rw [← map_one (residue taps), ← map_add, CharTwo.add_self_eq_zero, map_zero]
    linear_combination hzero - htwo
  refine register_inj (eq_of_residue_eq taps (degree_register_lt _) (degree_register_lt _) ?_)
  rw [residue_iterate, hpow, one_mul]

end Crc

/-
**C integers of different widths.**

An expression of a C program mixes `int`, `uint32_t` and `size_t`: what is computed in one of them
is stored in another, and what does not fit is lost on the way.  A number that has been cut is still
the same number modulo the width it has been cut to.

* `MachineInt.SizeT` — `size_t` of 32 or of 64 bits;
* `MachineInt.SizeT.ofInt`, `MachineInt.int` — a number as a `size_t` and as an `int`;
* `MachineInt.SizeT.ofInt_of_neg` — a `size_t` below zero is large;
* `MachineInt.SizeT.ofInt_mod` — **what is left of a `size_t` in 32 bits does not depend on its
  width**;
* `MachineInt.int_eq_iff` — when an `int` is a given small number.
-/
import Mathlib.Algebra.Group.Int.Defs
import Mathlib.Algebra.Group.Nat.Defs
import Mathlib.Data.Int.Notation
import Mathlib.Data.Nat.Notation

set_option relaxedAutoImplicit false
set_option autoImplicit false

namespace MachineInt

/-- The width of `size_t`. -/
inductive SizeT where
  | bits32
  | bits64
  deriving DecidableEq

/-- How many values a `size_t` has. -/
def SizeT.modulus : SizeT → ℕ
  | .bits32 => 2 ^ 32
  | .bits64 => 2 ^ 64

/-- A number as a `size_t`. -/
def SizeT.ofInt (w : SizeT) (n : ℤ) : ℕ := (n % w.modulus).toNat

/-- A number as an `int` of 32 bits. -/
def int (n : ℤ) : ℤ := n.bmod (2 ^ 32)

theorem SizeT.modulus_ge (w : SizeT) : 2 ^ 32 ≤ w.modulus := by
  cases w with
  | bits32 => exact Nat.le_refl _
  | bits64 => decide

theorem SizeT.dvd_modulus (w : SizeT) : 2 ^ 32 ∣ w.modulus := by
  cases w with
  | bits32 => exact Nat.dvd_refl _
  | bits64 => decide

/-- A number that fits. -/
theorem SizeT.ofInt_of_lt (w : SizeT) {n : ℕ} (h : n < w.modulus) : w.ofInt n = n := by
  rw [SizeT.ofInt, Int.emod_eq_of_lt (Int.natCast_nonneg _) (by omega), Int.toNat_natCast]

/-- A small number below zero becomes a large one. -/
theorem SizeT.ofInt_of_neg (w : SizeT) {n : ℕ} (hpos : 0 < n) (h : n ≤ 2 ^ 32) :
    w.ofInt (-(n : ℤ)) = w.modulus - n := by
  have hmodulus := w.modulus_ge
  have hmod : (-(n : ℤ)) % w.modulus = w.modulus - n := by
    rw [← Int.add_emod_right, Int.emod_eq_of_lt (by omega) (by omega)]
    omega
  rw [SizeT.ofInt, hmod]
  omega

theorem int_of_lt {n : ℤ} (hlow : -2 ^ 31 ≤ n) (hhigh : n < 2 ^ 31) : int n = n :=
  Int.bmod_eq_of_le (by omega) (by omega)

/-- An `int` is never more than what has been stored in it. -/
theorem int_le {n : ℤ} (h : 0 ≤ n) : int n ≤ n := by
  have hmod := Int.emod_nonneg n (show ((2 ^ 32 : ℕ) : ℤ) ≠ 0 by decide)
  have hdiv := Int.emod_add_mul_ediv n ((2 ^ 32 : ℕ) : ℤ)
  have hquot : 0 ≤ n / ((2 ^ 32 : ℕ) : ℤ) := Int.ediv_nonneg h (by decide)
  rw [int, Int.bmod_def]
  split <;> omega

/-- A small number that is not below zero is in an `int` exactly when it has been stored there, up
to multiples of the width. -/
theorem int_eq_iff {n k : ℤ} (h0 : 0 ≤ k) (hk : k < 2 ^ 31) : int n = k ↔ n % 2 ^ 32 = k := by
  have hmod := Int.emod_nonneg n (show (2 ^ 32 : ℤ) ≠ 0 by decide)
  have hlt := Int.emod_lt_of_pos n (show (0 : ℤ) < 2 ^ 32 by decide)
  rw [int, Int.bmod_def]
  split <;> omega

/-- What is left of a `size_t` in 32 bits does not depend on its width. -/
theorem SizeT.ofInt_mod (w : SizeT) (n : ℕ) : w.ofInt n % 2 ^ 32 = n % 2 ^ 32 := by
  rw [SizeT.ofInt, ← Int.natCast_emod, Int.toNat_natCast, Nat.mod_mod_of_dvd n w.dvd_modulus]

end MachineInt

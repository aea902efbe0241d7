/-
**A counter that runs over.**

A counter goes up by the same stride again and again, in a word that starts again at zero when it is
full.  It passes through all multiples of the greatest common divisor of the stride and the size of
the word, so it comes close to the end of the word, but perhaps only after many rounds.

* `Stride.value` — the counter after some strides;
* `Stride.exists_value_eq` — **it comes to the last multiple of the greatest common divisor**;
* `Stride.exists_le_value` — a limit that is sure to be reached.
-/
import Mathlib.Data.Int.GCD

set_option relaxedAutoImplicit false
set_option autoImplicit false

namespace Stride

/-- The counter after `n` strides, in a word with `size` values. -/
def value (size stride n : ℕ) : ℕ := n * stride % size

variable {size stride : ℕ}

theorem value_zero : value size stride 0 = 0 := by
  rw [value, Nat.zero_mul, Nat.zero_mod]

theorem value_succ (n : ℕ) : value size stride (n + 1) = (value size stride n + stride) % size := by
  rw [value, value, Nat.mod_add_mod, Nat.succ_mul]

/-- The counter has not run over yet. -/
theorem value_of_lt {n : ℕ} (h : n * stride < size) : value size stride n = n * stride :=
  Nat.mod_eq_of_lt h

/-- The counter comes to the last multiple of the greatest common divisor. -/
theorem exists_value_eq (hpos : 0 < stride) (hlt : stride < size) :
    ∃ n, value size stride n = size - stride.gcd size := by
  have hgcd : stride.gcd size < size :=
    (Nat.gcd_le_left size hpos).trans_lt hlt
  have hgcdPos : 0 < stride.gcd size := Nat.gcd_pos_of_pos_left size hpos
  obtain ⟨q, hq⟩ := Nat.gcd_dvd_right stride size
  obtain ⟨m, -, hm⟩ := Nat.exists_mul_mod_eq_gcd hgcd
  have hqpos : 0 < q := by
    refine Nat.pos_of_ne_zero ?_
    rintro rfl
    omega
  have hback : (q - 1) * stride.gcd size = size - stride.gcd size := by
    rw [Nat.sub_mul, Nat.one_mul, Nat.mul_comm q, ← hq]
  refine ⟨(q - 1) * m, ?_⟩
  calc value size stride ((q - 1) * m)
      = (q - 1) * (stride * m) % size := by rw [value, Nat.mul_assoc, Nat.mul_comm m]
    _ = (q - 1) * stride.gcd size % size := by rw [← Nat.mul_mod_mod, hm]
    _ = size - stride.gcd size := by rw [hback, Nat.mod_eq_of_lt (by omega)]

/-- A limit that is at least the greatest common divisor away from the end of the word. -/
theorem exists_le_value (hpos : 0 < stride) (hlt : stride < size) {limit : ℕ}
    (hlimit : limit + stride.gcd size ≤ size) : ∃ n, limit ≤ value size stride n := by
  obtain ⟨n, hn⟩ := exists_value_eq hpos hlt
  exact ⟨n, by omega⟩

end Stride

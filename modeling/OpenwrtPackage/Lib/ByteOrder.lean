/-
**Byte order.**

A number of 32 bits stands in memory as four bytes, the least significant one first or last.  A
program that takes a field in one order and wants it in the other swaps its bytes.

* `Bytes.bswap32` — the four bytes the other way round;
* `Bytes.be32` — a number written out, the most significant byte first;
* `Bytes.bswap32_bswap32` — **a swap undoes a swap**;
* `Bytes.le32At_le32`, `Bytes.le32At_be32` — what a little-endian reader makes of either order;
* `Bytes.bswap32_eq_self_iff` — a swap is invisible exactly in a palindrome.
-/
import Mathlib.Algebra.Group.Nat.Defs
import OpenwrtPackage.Lib.Bytes

set_option relaxedAutoImplicit false
set_option autoImplicit false

namespace Bytes

/-! ### Swapping -/

/-- The bytes of a number in reverse order. -/
def bswap32 (x : UInt32) : UInt32 :=
  x >>> 24 ||| x >>> 8 &&& (0xff00 : UInt32) ||| x <<< 8 &&& (0xff0000 : UInt32) ||| x <<< 24

/-- A number in four bytes, the most significant one first. -/
def be32 (n : UInt32) : List UInt8 := (le32 n).reverse

/-- A byte that is picked by a mask. -/
theorem and_ff_mul_two_pow (n k : ℕ) : n &&& 255 * 2 ^ k = n / 2 ^ k % 256 * 2 ^ k := by
  rw [← Nat.shiftLeft_eq, ← Nat.shiftLeft_eq, ← Nat.shiftRight_eq_div_pow]
  refine Nat.eq_of_testBit_eq fun i => ?_
  rw [Nat.testBit_and, Nat.testBit_shiftLeft, Nat.testBit_shiftLeft, show 256 = 2 ^ 8 from rfl,
    show 255 = 2 ^ 8 - 1 from rfl, Nat.testBit_two_pow_sub_one, Nat.testBit_mod_two_pow,
    Nat.testBit_shiftRight]
  by_cases h : k ≤ i
  · rw [Nat.add_sub_cancel' h]
    simp [h, Bool.and_comm]
  · simp [h]

theorem or_mul_two_pow {b k : ℕ} (h : b < 2 ^ k) (a : ℕ) : b ||| a * 2 ^ k = b + a * 2 ^ k := by
  rw [Nat.or_comm, Nat.mul_comm, ← Nat.two_pow_add_eq_or_of_lt h, Nat.add_comm]

/-- The bytes of a number. -/
theorem exists_bytes (x : UInt32) : ∃ a b c d : ℕ, a < 256 ∧ b < 256 ∧ c < 256 ∧ d < 256 ∧
    x.toNat = a + b * 2 ^ 8 + c * 2 ^ 16 + d * 2 ^ 24 := by
  have hx := x.toNat_lt
  refine ⟨x.toNat % 256, x.toNat / 256 % 256, x.toNat / 65536 % 256, x.toNat / 16777216, ?_⟩
  omega

section

variable {x : UInt32} {a b c d : ℕ}

theorem toNat_bswap32 (ha : a < 256) (hb : b < 256) (hc : c < 256) (hd : d < 256)
    (hx : x.toNat = a + b * 2 ^ 8 + c * 2 ^ 16 + d * 2 ^ 24) :
    (bswap32 x).toNat = d + c * 2 ^ 8 + b * 2 ^ 16 + a * 2 ^ 24 := by
  have hlow : x.toNat / 2 ^ 8 &&& 0xff00 = c * 2 ^ 8 := by
    rw [show 0xff00 = 255 * 2 ^ 8 from rfl, and_ff_mul_two_pow]
    omega
  have hhigh : x.toNat * 2 ^ 8 % 2 ^ 32 &&& 0xff0000 = b * 2 ^ 16 := by
    rw [show 0xff0000 = 255 * 2 ^ 16 from rfl, and_ff_mul_two_pow]
    omega
  have htop : x.toNat * 2 ^ 24 % 2 ^ 32 = a * 2 ^ 24 := by omega
  have hbottom : x.toNat / 2 ^ 24 = d := by omega
  simp only [bswap32, UInt32.toNat_or, UInt32.toNat_and, UInt32.toNat_shiftRight,
    UInt32.toNat_shiftLeft, UInt32.reduceToNat, Nat.reduceMod, Nat.shiftRight_eq_div_pow,
    Nat.shiftLeft_eq]
  rw [hlow, hhigh, htop, hbottom, @or_mul_two_pow d 8 (by omega), @or_mul_two_pow _ 16 (by omega),
    @or_mul_two_pow _ 24 (by omega)]

theorem le32_eq (ha : a < 256) (hb : b < 256) (hc : c < 256)
    (hx : x.toNat = a + b * 2 ^ 8 + c * 2 ^ 16 + d * 2 ^ 24) :
    le32 x = [UInt8.ofNat a, UInt8.ofNat b, UInt8.ofNat c, UInt8.ofNat d] := by
  have hbyte : ∀ n k : ℕ, n % 256 = k % 256 → UInt8.ofNat n = UInt8.ofNat k := fun n k h =>
    UInt8.toNat_inj.1 (by simpa using h)
  rw [le32, le16, le16, List.cons_append, List.cons_append, List.nil_append,
    hbyte x.toNat a (by omega), hbyte (x.toNat / 256) b (by omega),
    hbyte (x.toNat / 65536) c (by omega), hbyte (x.toNat / 65536 / 256) d (by omega)]

end

theorem toNat_le32At_bytes {a b c d : ℕ} (ha : a < 256) (hb : b < 256) (hc : c < 256)
    (hd : d < 256) (rest : List UInt8) :
    (le32At (UInt8.ofNat a :: UInt8.ofNat b :: UInt8.ofNat c :: UInt8.ofNat d :: rest) 0).toNat =
      a + b * 2 ^ 8 + c * 2 ^ 16 + d * 2 ^ 24 := by
  simp only [le32At, le16At, byteAt, List.getD_cons_zero, List.getD_cons_succ, UInt8.toNat_ofNat',
    UInt32.toNat_ofNat']
  omega

/-- **A swap undoes a swap.** -/
@[simp] theorem bswap32_bswap32 (x : UInt32) : bswap32 (bswap32 x) = x := by
  obtain ⟨a, b, c, d, ha, hb, hc, hd, hx⟩ := exists_bytes x
  have hswap := toNat_bswap32 ha hb hc hd hx
  refine UInt32.toNat_inj.1 ?_
  rw [toNat_bswap32 hd hc hb ha hswap, hx]

theorem bswap32_inj {x y : UInt32} : bswap32 x = bswap32 y ↔ x = y :=
  ⟨fun h => by rw [← bswap32_bswap32 x, h, bswap32_bswap32], congrArg bswap32⟩

/-- A number whose swap has the same lower half is its own swap. -/
theorem bswap32_eq_self_of_mod {n : UInt32} (h : (bswap32 n).toNat % 65536 = n.toNat % 65536) :
    bswap32 n = n := by
  obtain ⟨a, b, c, d, ha, hb, hc, hd, hn⟩ := exists_bytes n
  have hswap := toNat_bswap32 ha hb hc hd hn
  refine UInt32.toNat_inj.1 ?_
  omega

/-! ### Reading -/

@[simp] theorem le32_length (n : UInt32) : (le32 n).length = 4 := rfl

@[simp] theorem be32_length (n : UInt32) : (be32 n).length = 4 := rfl

theorem le32At_le32 (n : UInt32) (rest : List UInt8) : le32At (le32 n ++ rest) 0 = n := by
  obtain ⟨a, b, c, d, ha, hb, hc, hd, hn⟩ := exists_bytes n
  refine UInt32.toNat_inj.1 ?_
  rw [le32_eq ha hb hc hn, hn]
  exact toNat_le32At_bytes ha hb hc hd rest

theorem le32At_be32 (n : UInt32) (rest : List UInt8) :
    le32At (be32 n ++ rest) 0 = bswap32 n := by
  obtain ⟨a, b, c, d, ha, hb, hc, hd, hn⟩ := exists_bytes n
  refine UInt32.toNat_inj.1 ?_
  rw [be32, le32_eq ha hb hc hn, toNat_bswap32 ha hb hc hd hn]
  exact toNat_le32At_bytes hd hc hb ha rest

theorem le32_bswap32 (n : UInt32) : le32 (bswap32 n) = be32 n := by
  obtain ⟨a, b, c, d, ha, hb, hc, hd, hn⟩ := exists_bytes n
  rw [be32, le32_eq ha hb hc hn, le32_eq hd hc hb (toNat_bswap32 ha hb hc hd hn)]
  rfl

/-- A swap is invisible exactly in a palindrome. -/
theorem bswap32_eq_self_iff (n : UInt32) : bswap32 n = n ↔ be32 n = le32 n := by
  constructor
  · intro h
    rw [← le32_bswap32, h]
  · intro h
    rw [← le32At_be32 n [], h, le32At_le32]

end Bytes

/-
**Characters as UTF-16 and as UTF-8.**

A character above `U+FFFF` is written in UTF-16 as two code units, a high and a low surrogate, which
no character has as its own number.  In UTF-8 each byte of a character above `U+007F` is 128 or
more, and all but the first of them hold six bits.

* `Unicode.highSurrogate`, `Unicode.lowSurrogate` — the two code units;
* `Unicode.surrogates_join` — **they are put together to the character again**;
* `Unicode.not_surrogate` — a character is none of them;
* `Unicode.continuation`, `Unicode.leading` — the bytes of UTF-8 by masks;
* `Unicode.utf8EncodeChar_one`, `Unicode.utf8EncodeChar_four` — the bytes by the size of the number;
* `Unicode.le_of_mem_utf8EncodeChar` — the bytes that do not stand for themselves.
-/
import Mathlib.Data.Nat.Bitwise

set_option relaxedAutoImplicit false
set_option autoImplicit false

namespace Unicode

/-! ### Surrogates -/

/-- The first code unit of a character above `U+FFFF`. -/
def highSurrogate (c : Char) : ℕ := 0xD800 + (c.toNat - 0x10000) / 0x400

/-- The second code unit of a character above `U+FFFF`. -/
def lowSurrogate (c : Char) : ℕ := 0xDC00 + (c.toNat - 0x10000) % 0x400

theorem toNat_lt (c : Char) : c.toNat < 0x110000 := by
  rcases c.valid with h | ⟨-, h⟩
  · exact Nat.lt_trans h (by decide)
  · exact h

/-- A surrogate is not the number of a character. -/
theorem not_surrogate (c : Char) : ¬ (0xD800 ≤ c.toNat ∧ c.toNat ≤ 0xDFFF) := by
  rintro ⟨hlow, hhigh⟩
  rcases c.valid with h | ⟨h, -⟩
  · exact absurd h (Nat.not_lt.2 hlow)
  · exact absurd h (Nat.not_lt.2 hhigh)

theorem highSurrogate_range (c : Char) :
    0xD800 ≤ highSurrogate c ∧ highSurrogate c ≤ 0xDBFF := by
  have hlt := toNat_lt c
  rw [highSurrogate]
  omega

theorem lowSurrogate_range (c : Char) : 0xDC00 ≤ lowSurrogate c ∧ lowSurrogate c ≤ 0xDFFF := by
  rw [lowSurrogate]
  omega

/-- **The two code units are put together to the character.** -/
theorem surrogates_join {c : Char} (h : 0x10000 ≤ c.toNat) :
    0x10000 + (((highSurrogate c &&& 0x3FF) <<< 10) ||| (lowSurrogate c &&& 0x3FF)) = c.toNat := by
  have hlt := toNat_lt c
  have hmask : ∀ n : ℕ, n &&& 0x3FF = n % 0x400 := fun n => Nat.and_two_pow_sub_one_eq_mod n 10
  have hlow : lowSurrogate c % 0x400 < 2 ^ 10 := Nat.mod_lt _ (by decide)
  rw [hmask, hmask, Nat.shiftLeft_eq, Nat.mul_comm, ← Nat.two_pow_add_eq_or_of_lt hlow,
    highSurrogate, lowSurrogate]
  omega

/-! ### Bytes -/

/-- A byte behind the first one. -/
theorem continuation (n : ℕ) : (n ||| 0x80) &&& 0xBF = n % 0x40 + 0x80 := by
  have hbyte : ∀ m < 0x100, (m ||| 0x80) &&& 0xBF = m % 0x40 + 0x80 := by decide +kernel
  have hlow : (n ||| 0x80) &&& 0xBF = (n % 0x100 ||| 0x80) &&& 0xBF := by
    have hmask : ∀ k : ℕ, k &&& 0xBF = k % 0x100 &&& 0xBF := fun k => by
      rw [← Nat.and_two_pow_sub_one_eq_mod k 8, Nat.and_assoc]
      rfl
    rw [hmask]
    exact congrArg (· &&& 0xBF) (Nat.or_mod_two_pow (n := 8))
  rw [hlow, hbyte _ (Nat.mod_lt _ (by decide)), Nat.mod_mod_of_dvd n (by decide)]

/-- The first byte of two, of three and of four. -/
theorem leading : (∀ n < 0x20, n ||| 0xC0 = n + 0xC0) ∧ (∀ n < 0x10, n ||| 0xE0 = n + 0xE0) ∧
    ∀ n < 0x08, n ||| 0xF0 = n + 0xF0 := by
  decide

theorem utf8EncodeChar_one {c : Char} (h : c.toNat < 0x80) :
    String.utf8EncodeChar c = [UInt8.ofNat c.toNat] := by
  have hle : c.val.toNat ≤ 0x7f := Nat.le_of_lt_succ h
  unfold String.utf8EncodeChar
  rw [if_pos hle]
  rfl

theorem utf8EncodeChar_two {c : Char} (h : 0x80 ≤ c.toNat) (h' : c.toNat < 0x800) :
    String.utf8EncodeChar c =
      [UInt8.ofNat (c.toNat / 0x40 + 0xC0), UInt8.ofNat (c.toNat % 0x40 + 0x80)] := by
  have hne : ¬ c.val.toNat ≤ 0x7f := Nat.not_le.2 h
  have hle : c.val.toNat ≤ 0x7ff := Nat.le_of_lt_succ h'
  have hhigh : c.val.toNat / 64 % 0x20 = c.toNat / 0x40 := Nat.mod_eq_of_lt (by omega)
  unfold String.utf8EncodeChar
  rw [if_neg hne, if_pos hle, hhigh]
  rfl

theorem utf8EncodeChar_three {c : Char} (h : 0x800 ≤ c.toNat) (h' : c.toNat < 0x10000) :
    String.utf8EncodeChar c =
      [UInt8.ofNat (c.toNat / 0x1000 + 0xE0), UInt8.ofNat (c.toNat / 0x40 % 0x40 + 0x80),
        UInt8.ofNat (c.toNat % 0x40 + 0x80)] := by
  have hne : ¬ c.val.toNat ≤ 0x7f := Nat.not_le.2 (Nat.lt_of_lt_of_le (by decide) h)
  have hne' : ¬ c.val.toNat ≤ 0x7ff := Nat.not_le.2 h
  have hle : c.val.toNat ≤ 0xffff := Nat.le_of_lt_succ h'
  have hhigh : c.val.toNat / 4096 % 0x10 = c.toNat / 0x1000 := Nat.mod_eq_of_lt (by omega)
  unfold String.utf8EncodeChar
  rw [if_neg hne, if_neg hne', if_pos hle, hhigh]
  rfl

theorem utf8EncodeChar_four {c : Char} (h : 0x10000 ≤ c.toNat) :
    String.utf8EncodeChar c =
      [UInt8.ofNat (c.toNat / 0x40000 + 0xF0), UInt8.ofNat (c.toNat / 0x1000 % 0x40 + 0x80),
        UInt8.ofNat (c.toNat / 0x40 % 0x40 + 0x80), UInt8.ofNat (c.toNat % 0x40 + 0x80)] := by
  have hlt : c.val.toNat < 0x110000 := toNat_lt c
  have hne : ¬ c.val.toNat ≤ 0x7f := Nat.not_le.2 (Nat.lt_of_lt_of_le (by decide) h)
  have hne' : ¬ c.val.toNat ≤ 0x7ff := Nat.not_le.2 (Nat.lt_of_lt_of_le (by decide) h)
  have hne'' : ¬ c.val.toNat ≤ 0xffff := Nat.not_le.2 h
  have hhigh : c.val.toNat / 262144 % 0x08 = c.toNat / 0x40000 := Nat.mod_eq_of_lt (by omega)
  unfold String.utf8EncodeChar
  rw [if_neg hne, if_neg hne', if_neg hne'', hhigh]
  rfl

/-- A byte of a character that is not ASCII is not ASCII. -/
theorem le_of_mem_utf8EncodeChar {c : Char} (h : 0x80 ≤ c.toNat) {b : UInt8}
    (hb : b ∈ String.utf8EncodeChar c) : 0x80 ≤ b.toNat := by
  have hlt := toNat_lt c
  have hbyte : ∀ n : ℕ, 0x80 ≤ n → n < 0x100 → 0x80 ≤ (UInt8.ofNat n).toNat := by
    intro n hlow hhigh
    rw [UInt8.toNat_ofNat', Nat.mod_eq_of_lt hhigh]
    exact hlow
  rcases Nat.lt_or_ge c.toNat 0x800 with h2 | h2
  · rw [utf8EncodeChar_two h h2] at hb
    simp only [List.mem_cons, List.not_mem_nil, or_false] at hb
    rcases hb with rfl | rfl <;> exact hbyte _ (by omega) (by omega)
  · rcases Nat.lt_or_ge c.toNat 0x10000 with h3 | h3
    · rw [utf8EncodeChar_three h2 h3] at hb
      simp only [List.mem_cons, List.not_mem_nil, or_false] at hb
      rcases hb with rfl | rfl | rfl <;> exact hbyte _ (by omega) (by omega)
    · rw [utf8EncodeChar_four h3] at hb
      simp only [List.mem_cons, List.not_mem_nil, or_false] at hb
      rcases hb with rfl | rfl | rfl | rfl <;> exact hbyte _ (by omega) (by omega)

end Unicode

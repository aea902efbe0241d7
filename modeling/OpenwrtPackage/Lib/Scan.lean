/-
**Reading numbers out of a string.**

`strtol`, `strtoul` and the conversions `%d` and `%x` of `scanf` read a number the same way: blanks,
a sign, for base 16 a prefix `0x`, and digits.

* `CScan.scanInt` — the number at the front of a string, and what stands behind it;
* `CScan.strtol`, `CScan.strtoul` — with the bounds of a `long` of 64 bits;
* `CScan.toInt` — a `long` that is stored into an `int`;
* `CScan.dec` — `%d` for a number that is not negative;
* `CScan.scanInt_dec` — **a number that has been printed is read back**;
* `CScan.scanInt_digits` — what a run of digits is read as.
-/
import Mathlib.Algebra.Group.Int.Defs
import Mathlib.Algebra.Group.Nat.Defs
import Mathlib.Data.Int.Notation
import Mathlib.Data.List.TakeWhile

set_option relaxedAutoImplicit false
set_option autoImplicit false

namespace CScan

/-! ### Digits -/

/-- `isspace` -/
def isspace (c : Char) : Bool := c = ' ' || (9 ≤ c.toNat && c.toNat ≤ 13)

/-- The value of a digit, the letters of both cases included. -/
def digitVal (c : Char) : Option ℕ :=
  if '0' ≤ c ∧ c ≤ '9' then some (c.toNat - 48)
  else if 'a' ≤ c ∧ c ≤ 'z' then some (c.toNat - 87)
  else if 'A' ≤ c ∧ c ≤ 'Z' then some (c.toNat - 55)
  else none

def isDigit (base : ℕ) (c : Char) : Bool := (digitVal c).any (· < base)

/-- The number that a run of digits stands for. -/
def value (base : ℕ) (digits : List Char) : ℕ :=
  digits.foldl (fun n c => base * n + (digitVal c).getD 0) 0

/-! ### Numbers -/

/-- A sign, if there is one: whether it is a minus, and what stands behind it. -/
def scanSign : List Char → Bool × List Char
  | '-' :: s => (true, s)
  | '+' :: s => (false, s)
  | s => (false, s)

/-- For base 16, what stands behind a prefix `0x`, if a digit does. -/
def skipPrefix (base : ℕ) : List Char → List Char
  | '0' :: x :: c :: s =>
      if base = 16 ∧ (x = 'x' ∨ x = 'X') ∧ isDigit 16 c then c :: s else '0' :: x :: c :: s
  | s => s

/-- The digits at the front, if there are any. -/
def scanDigits (base : ℕ) (s : List Char) : Option (ℕ × List Char) :=
  if s.takeWhile (isDigit base) = [] then none
  else some (value base (s.takeWhile (isDigit base)), s.dropWhile (isDigit base))

/-- The number at the front of a string and what stands behind it. -/
def scanInt (base : ℕ) (s : List Char) : Option (ℤ × List Char) :=
  let r := scanSign (s.dropWhile isspace)
  (scanDigits base (skipPrefix base r.2)).map fun v => (if r.1 then -(v.1 : ℤ) else v.1, v.2)

/-- `LONG_MAX` -/
def longMax : ℤ := 2 ^ 63 - 1

/-- A number that does not fit becomes the nearest `long`. -/
def clampLong (n : ℤ) : ℤ := max (-longMax - 1) (min n longMax)

/-- `strtol(s, &end, base)`, and whether `end` is not `s`. -/
def strtol (base : ℕ) (s : List Char) : ℤ × Bool :=
  match scanInt base s with
  | none => (0, false)
  | some (n, _) => (clampLong n, true)

/-- `strtoul(s, &end, base)` stored into a `long`, and whether `end` is not `s`. -/
def strtoul (base : ℕ) (s : List Char) : ℤ × Bool :=
  match scanInt base s with
  | none => (0, false)
  | some (n, _) => (if n.natAbs < 2 ^ 64 then n.bmod (2 ^ 64) else -1, true)

/-- A `long` stored into an `int`. -/
def toInt (l : ℤ) : ℤ := l.bmod (2 ^ 32)

/-! ### Printing -/

/-- `%d` for a number that is not negative. -/
def dec (n : ℕ) : List Char := Nat.toDigits 10 n

/-- `%d` -/
def decInt (n : ℤ) : List Char := if n < 0 then '-' :: dec n.natAbs else dec n.natAbs

theorem toInt_clampLong {n : ℤ} (h : -2 ^ 31 ≤ n) (hlt : n < 2 ^ 31) :
    toInt (clampLong n) = n := by
  have hclamp : clampLong n = n := by
    unfold clampLong longMax
    omega
  rw [hclamp, toInt, Int.bmod_eq_of_le (by omega) (by omega)]

theorem digitVal_digitChar : ∀ d < 16, digitVal (Nat.digitChar d) = some d := by decide

theorem isDigit_digitChar {base d : ℕ} (h : d < base) (hbase : base ≤ 16) :
    isDigit base (Nat.digitChar d) = true := by
  rw [isDigit, digitVal_digitChar d (by omega)]
  simpa using h

theorem value_append (base : ℕ) (digits : List Char) (c : Char) :
    value base (digits ++ [c]) = base * value base digits + (digitVal c).getD 0 := by
  rw [value, List.foldl_append]
  rfl

theorem value_toDigits {base : ℕ} (hone : 1 < base) (hbase : base ≤ 16) (n : ℕ) :
    value base (Nat.toDigits base n) = n := by
  induction n using Nat.strongRecOn with
  | _ n ih =>
      by_cases hn : n < base
      · rw [Nat.toDigits_of_lt_base hn]
        simp [value, digitVal_digitChar n (by omega)]
      · have hlt : n % base < base := Nat.mod_lt _ (by omega)
        rw [Nat.toDigits_of_base_le hone (by omega), value_append,
          ih _ (Nat.div_lt_self (by omega) hone), digitVal_digitChar _ (by omega),
          Option.getD_some, Nat.div_add_mod]

theorem isDigit_of_mem_toDigits {base : ℕ} (hone : 1 < base) (hbase : base ≤ 16) (n : ℕ) :
    ∀ c ∈ Nat.toDigits base n, isDigit base c = true := by
  induction n using Nat.strongRecOn with
  | _ n ih =>
      by_cases hn : n < base
      · rw [Nat.toDigits_of_lt_base hn]
        intro c hc
        rw [List.mem_singleton.1 hc]
        exact isDigit_digitChar hn hbase
      · rw [Nat.toDigits_of_base_le hone (by omega)]
        intro c hc
        rcases List.mem_append.1 hc with hc | hc
        · exact ih _ (Nat.div_lt_self (by omega) hone) c hc
        · rw [List.mem_singleton.1 hc]
          exact isDigit_digitChar (Nat.mod_lt _ (by omega)) hbase

/-! ### Reading back -/

/-- What does not go on a run of digits. -/
def Stops (base : ℕ) (rest : List Char) : Prop := ∀ c ∈ rest.head?, isDigit base c = false

theorem takeWhile_digits {base : ℕ} {digits rest : List Char}
    (hdigits : ∀ c ∈ digits, isDigit base c = true) (hrest : Stops base rest) :
    (digits ++ rest).takeWhile (isDigit base) = digits ∧
      (digits ++ rest).dropWhile (isDigit base) = rest := by
  have htake : rest.takeWhile (isDigit base) = [] ∧ rest.dropWhile (isDigit base) = rest := by
    cases rest with
    | nil => exact ⟨rfl, rfl⟩
    | cons c rest =>
        have hc : ¬ isDigit base c = true := by
          rw [hrest c rfl]
          decide
        exact ⟨List.takeWhile_cons_of_neg hc, List.dropWhile_cons_of_neg hc⟩
  rw [List.takeWhile_append_of_pos hdigits, List.dropWhile_append_of_pos hdigits, htake.1, htake.2,
    List.append_nil]
  exact ⟨rfl, rfl⟩

/-- A digit is no blank and no sign. -/
theorem le_toNat_of_isDigit {base : ℕ} {c : Char} (h : isDigit base c = true) : 48 ≤ c.toNat := by
  have hle : ∀ d : Char, d ≤ c → d.toNat ≤ c.toNat := fun d hd => hd
  unfold isDigit digitVal at h
  split at h
  · next hc => exact hle '0' hc.1
  · split at h
    · next hc => exact Nat.le_trans (by decide) (hle 'a' hc.1)
    · split at h
      · next hc => exact Nat.le_trans (by decide) (hle 'A' hc.1)
      · cases h

theorem isspace_eq_false {c : Char} (h : 48 ≤ c.toNat) : isspace c = false := by
  have hne : c ≠ ' ' := by
    rintro rfl
    exact absurd h (by decide)
  simp only [isspace, hne, decide_false, Bool.false_or, Bool.and_eq_false_iff,
    decide_eq_false_iff_not]
  omega

theorem scanSign_of_le {c : Char} (h : 48 ≤ c.toNat) (s : List Char) :
    scanSign (c :: s) = (false, c :: s) := by
  unfold scanSign
  split
  · next heq =>
      obtain ⟨rfl, -⟩ := List.cons.inj heq
      exact absurd h (by decide)
  · next heq =>
      obtain ⟨rfl, -⟩ := List.cons.inj heq
      exact absurd h (by decide)
  · rfl

theorem skipPrefix_of_ne {base : ℕ} (h : base ≠ 16) (s : List Char) : skipPrefix base s = s := by
  unfold skipPrefix
  split
  · exact if_neg fun hc => h hc.1
  · rfl

/-- A run of digits, for another base than 16. -/
theorem scanInt_digits {base : ℕ} (hbase : base ≠ 16) {digits rest : List Char}
    (hne : digits ≠ []) (hdigits : ∀ c ∈ digits, isDigit base c = true)
    (hrest : Stops base rest) :
    scanInt base (digits ++ rest) = some ((value base digits : ℤ), rest) := by
  obtain ⟨c, ds, rfl⟩ := List.exists_cons_of_ne_nil hne
  have hc : 48 ≤ c.toNat := le_toNat_of_isDigit (hdigits c (List.mem_cons_self ..))
  obtain ⟨htake, hdrop⟩ := takeWhile_digits hdigits hrest
  have hspace : (c :: ds ++ rest).dropWhile isspace = c :: ds ++ rest :=
    List.dropWhile_cons_of_neg (by rw [isspace_eq_false hc]; decide)
  have hsign : scanSign (c :: ds ++ rest) = (false, c :: ds ++ rest) := scanSign_of_le hc _
  unfold scanInt
  rw [hspace, hsign]
  dsimp only
  rw [skipPrefix_of_ne hbase, scanDigits, htake, hdrop, if_neg hne]
  rfl

/-- Digits alone are never a prefix `0x`. -/
theorem skipPrefix_digits {base : ℕ} {digits : List Char}
    (hdigits : ∀ c ∈ digits, isDigit base c = true) : skipPrefix base digits = digits := by
  unfold skipPrefix
  split
  · rename_i x c s
    refine if_neg ?_
    rintro ⟨rfl, hx, -⟩
    have hdigit := hdigits x (List.mem_cons_of_mem _ (List.mem_cons_self ..))
    rcases hx with rfl | rfl
    · exact absurd hdigit (by decide)
    · exact absurd hdigit (by decide)
  · rfl

theorem scanDigits_digits {base : ℕ} {digits : List Char} (hne : digits ≠ [])
    (hdigits : ∀ c ∈ digits, isDigit base c = true) :
    scanDigits base digits = some (value base digits, []) := by
  obtain ⟨htake, hdrop⟩ := @takeWhile_digits base digits [] hdigits (by rintro c ⟨⟩)
  rw [List.append_nil] at htake hdrop
  rw [scanDigits, htake, hdrop, if_neg hne]

/-- Digits and nothing else, for any base. -/
theorem scanInt_all {base : ℕ} {digits : List Char} (hne : digits ≠ [])
    (hdigits : ∀ c ∈ digits, isDigit base c = true) :
    scanInt base digits = some ((value base digits : ℤ), []) := by
  obtain ⟨c, ds, rfl⟩ := List.exists_cons_of_ne_nil hne
  have hc : 48 ≤ c.toNat := le_toNat_of_isDigit (hdigits c (List.mem_cons_self ..))
  have hspace : (c :: ds).dropWhile isspace = c :: ds :=
    List.dropWhile_cons_of_neg (by rw [isspace_eq_false hc]; decide)
  unfold scanInt
  rw [hspace, scanSign_of_le hc]
  dsimp only
  rw [skipPrefix_digits hdigits, scanDigits_digits hne hdigits]
  rfl

/-- Digits behind a minus. -/
theorem scanInt_minus {base : ℕ} {digits : List Char} (hne : digits ≠ [])
    (hdigits : ∀ c ∈ digits, isDigit base c = true) :
    scanInt base ('-' :: digits) = some (-(value base digits : ℤ), []) := by
  have hspace : ('-' :: digits).dropWhile isspace = '-' :: digits := rfl
  have hsign : scanSign ('-' :: digits) = (true, digits) := rfl
  unfold scanInt
  rw [hspace, hsign]
  dsimp only
  rw [skipPrefix_digits hdigits, scanDigits_digits hne hdigits]
  rfl

/-- **A number that has been printed is read back.** -/
theorem scanInt_dec (n : ℕ) {rest : List Char} (hrest : Stops 10 rest) :
    scanInt 10 (dec n ++ rest) = some ((n : ℤ), rest) := by
  rw [dec, scanInt_digits (by decide) Nat.toDigits_ne_nil
    (isDigit_of_mem_toDigits (by decide) (by decide) n) hrest,
    value_toDigits (by decide) (by decide)]

theorem scanInt_decInt (n : ℤ) : scanInt 10 (decInt n) = some (n, []) := by
  have hdigits := @isDigit_of_mem_toDigits 10 (by decide) (by decide) n.natAbs
  have hvalue := @value_toDigits 10 (by decide) (by decide) n.natAbs
  rw [decInt, dec]
  split
  · rename_i hneg
    have hn : -(n.natAbs : ℤ) = n := by omega
    rw [scanInt_minus Nat.toDigits_ne_nil hdigits, hvalue, hn]
  · rename_i hpos
    have hn : (n.natAbs : ℤ) = n := by omega
    rw [scanInt_all Nat.toDigits_ne_nil hdigits, hvalue, hn]

/-- Different numbers are printed differently. -/
theorem decInt_inj {m n : ℤ} : decInt m = decInt n ↔ m = n := by
  constructor
  · intro h
    have hm := scanInt_decInt m
    rw [h, scanInt_decInt n] at hm
    exact (congrArg Prod.fst (Option.some.inj hm)).symm
  · rintro rfl
    rfl

end CScan

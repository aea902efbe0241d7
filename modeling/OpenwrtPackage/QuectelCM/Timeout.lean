/-
**Waiting for a time.**

`pthread_cond_timeout_np` of `util.c` waits for a condition in four slices, so that a change of the
system time does little harm.  `setTimespecRelative` says when a slice ends.

* `QuectelCM.setTimespecRelative` — the time `msec` milliseconds from now;
* `QuectelCM.condTimeoutNext` — the loop, slice by slice, with `QuectelCM.resume_expired` — it is
  the one that a command waits in;
* `QuectelCM.SetsDeadline`, `QuectelCM.setsDeadline_iff` — when the time is right;
* `QuectelCM.condTimeout_ends` — the loop always ends, although its counter can run over;
* `QuectelCM.WaitsOut`, `QuectelCM.waitsOut_iff` — when it waits as long as it should;
* `QuectelCM.timedWait_iff` — **both together**.
-/
import OpenwrtPackage.Lib.Dialogue
import OpenwrtPackage.Lib.MachineInt
import OpenwrtPackage.Lib.Stride
import OpenwrtPackage.QuectelCM.Command
import Mathlib.Data.Nat.Prime.Basic

set_option relaxedAutoImplicit false
set_option autoImplicit false

namespace QuectelCM

/-! ### `setTimespecRelative` -/

/-- The width of `time_t`; that of `long` is 32 bits. -/
inductive TimeT where
  | bits32
  | bits64
  deriving DecidableEq

/-- The first number that does not fit a `time_t`. -/
def TimeT.bound : TimeT → ℕ
  | .bits32 => 2 ^ 31
  | .bits64 => 2 ^ 63

/-- A number that is stored as a `time_t`. -/
def TimeT.store (w : TimeT) (n : ℤ) : ℤ := n.bmod (2 * w.bound)

/-- `struct timeval` -/
structure Timeval where
  sec : ℤ
  usec : ℤ

/-- `struct timespec` -/
structure Timespec where
  sec : ℤ
  nsec : ℤ
  deriving DecidableEq

/-- `setTimespecRelative`, when `gettimeofday` says `tv`. -/
def setTimespecRelative (w : TimeT) (tv : Timeval) (msec : ℤ) : Timespec :=
  let sec := w.store (tv.sec + msec.tdiv 1000)
  let nsec := MachineInt.int ((tv.usec + msec.tmod 1000 * 1000) * 1000)
  -- The comparison and the difference are those of `unsigned long`.
  if 1000000000 ≤ nsec % 2 ^ 32 then
    ⟨w.store (sec + 1), MachineInt.int (nsec - 1000000000)⟩
  else ⟨sec, nsec⟩

/-- What is computed on the way to `tv_nsec`. -/
def nsecSteps (tv : Timeval) (msec : ℤ) : List ℤ :=
  [msec.tmod 1000 * 1000, tv.usec + msec.tmod 1000 * 1000,
    (tv.usec + msec.tmod 1000 * 1000) * 1000,
    (tv.usec + msec.tmod 1000 * 1000) * 1000 - 1000000000]

/-- What `gettimeofday` can say. -/
structure Timeval.Valid (w : TimeT) (tv : Timeval) : Prop where
  sec_ge : -(w.bound : ℤ) ≤ tv.sec
  sec_lt : tv.sec < w.bound
  usec_nonneg : 0 ≤ tv.usec
  usec_lt : tv.usec < 1000000

/-- The time is normalised, it is `msec` milliseconds after `tv`, and nothing on the way to it
leaves a `long`. -/
structure SetsDeadline (w : TimeT) (tv : Timeval) (msec : ℤ) : Prop where
  nsec_nonneg : 0 ≤ (setTimespecRelative w tv msec).nsec
  nsec_lt : (setTimespecRelative w tv msec).nsec < 1000000000
  exact : (setTimespecRelative w tv msec).sec * 1000000000 + (setTimespecRelative w tv msec).nsec =
    tv.sec * 1000000000 + tv.usec * 1000 + msec * 1000000
  noOverflow : ∀ n ∈ nsecSteps tv msec, -2 ^ 31 ≤ n ∧ n < 2 ^ 31

/-- The second that the time is in. -/
def deadlineSec (tv : Timeval) (msec : ℤ) : ℤ := tv.sec + (tv.usec + msec * 1000) / 1000000

theorem TimeT.store_eq_iff (w : TimeT) {n : ℤ} (h : -(w.bound : ℤ) ≤ n) :
    w.store n = n ↔ n < w.bound := by
  have hpos : 0 < w.bound := by cases w <;> decide
  constructor
  · intro heq
    have hlt := @Int.bmod_lt n (2 * w.bound) (by omega)
    rw [← TimeT.store, heq] at hlt
    omega
  · intro hlt
    exact Int.bmod_eq_of_le (by omega) (by omega)

/-- A second that is added behind storing. -/
theorem TimeT.store_store_add (w : TimeT) (n m : ℤ) : w.store (w.store n + m) = w.store (n + m) :=
  Int.bmod_add_bmod

section Deadline

variable {w : TimeT} {tv : Timeval} {msec : ℤ}

theorem nsecSteps_range (h : tv.Valid w) (hmsec : 0 ≤ msec) :
    ∀ n ∈ nsecSteps tv msec, -2 ^ 31 ≤ n ∧ n < 2 ^ 31 := by
  have hnonneg := h.usec_nonneg
  have hmicro := h.usec_lt
  intro n hn
  rw [nsecSteps, Int.tmod_eq_emod_of_nonneg hmsec] at hn
  simp only [List.mem_cons, List.not_mem_nil, or_false] at hn
  rcases hn with rfl | rfl | rfl | rfl <;> omega

/-- The two cases of the carry. -/
theorem setTimespecRelative_eq (h : tv.Valid w) (hmsec : 0 ≤ msec) :
    ∃ nsec, 0 ≤ nsec ∧ nsec < 1000000000 ∧
      deadlineSec tv msec * 1000000000 + nsec =
        tv.sec * 1000000000 + tv.usec * 1000 + msec * 1000000 ∧
      setTimespecRelative w tv msec = ⟨w.store (deadlineSec tv msec), nsec⟩ := by
  have hnonneg := h.usec_nonneg
  have hmicro := h.usec_lt
  have hnsec : MachineInt.int ((tv.usec + msec % 1000 * 1000) * 1000) =
      (tv.usec + msec % 1000 * 1000) * 1000 := MachineInt.int_of_lt (by omega) (by omega)
  have hunsigned : (tv.usec + msec % 1000 * 1000) * 1000 % 2 ^ 32 =
      (tv.usec + msec % 1000 * 1000) * 1000 := Int.emod_eq_of_lt (by omega) (by omega)
  rw [setTimespecRelative, Int.tmod_eq_emod_of_nonneg hmsec, Int.tdiv_eq_ediv_of_nonneg hmsec]
  simp only [hnsec, hunsigned]
  split
  · have hcarry : deadlineSec tv msec = tv.sec + msec / 1000 + 1 := by
      rw [deadlineSec]
      omega
    refine ⟨(tv.usec + msec % 1000 * 1000) * 1000 - 1000000000, by omega, by omega, by omega, ?_⟩
    rw [hcarry, TimeT.store_store_add, MachineInt.int_of_lt (by omega) (by omega)]
  · have hcarry : deadlineSec tv msec = tv.sec + msec / 1000 := by
      rw [deadlineSec]
      omega
    exact ⟨(tv.usec + msec % 1000 * 1000) * 1000, by omega, by omega, by omega, by rw [hcarry]⟩

/-- The time is right exactly when its second fits a `time_t`. -/
theorem setsDeadline_iff (h : tv.Valid w) (hmsec : 0 ≤ msec) :
    SetsDeadline w tv msec ↔ deadlineSec tv msec < w.bound := by
  obtain ⟨nsec, hnonneg, hlt, hexact, heq⟩ := setTimespecRelative_eq h hmsec
  have hlow : -(w.bound : ℤ) ≤ deadlineSec tv msec := by
    have hsec := h.sec_ge
    have husec := h.usec_nonneg
    rw [deadlineSec]
    omega
  rw [← w.store_eq_iff hlow]
  constructor
  · intro hsets
    have hsame := hsets.exact
    rw [heq] at hsame
    dsimp only at hsame
    omega
  · intro hstore
    rw [hstore] at heq
    refine ⟨?_, ?_, ?_, nsecSteps_range h hmsec⟩
    · rw [heq]
      exact hnonneg
    · rw [heq]
      exact hlt
    · rw [heq]
      exact hexact

end Deadline

/-! ### `pthread_cond_timeout_np` -/

/-- Where the function waits. -/
inductive CondWait where
  /-- `pthread_cond_wait` -/
  | untimed
  /-- `pthread_cond_timedwait`, with the loop variable -/
  | timed (i : UInt32)
  deriving DecidableEq

/-- `pthread_cond_timeout_np` up to the first wait; the loop is entered, as `0 < msecs`. -/
def condTimeoutStart (msecs : UInt32) : CondWait ⊕ ℤ :=
  if msecs ≠ 0 then .inl (.timed 0) else .inl .untimed

/-- It has waited, and `ret` is the result. -/
def condTimeoutNext (msecs : UInt32) : CondWait → ℤ → CondWait ⊕ ℤ
  | .untimed, ret => .inr ret
  | .timed i, ret =>
      if ret ≠ etimedout then .inr ret
      else if i + slice msecs < msecs then .inl (.timed (i + slice msecs))
      else .inr ret

/-- The time that `pthread_cond_timedwait` is given for a slice. -/
def sliceDeadline (w : TimeT) (tv : Timeval) (msecs : UInt32) : Timespec :=
  setTimespecRelative w tv (slice msecs).toNat

/-- A slice takes as many milliseconds as it has. -/
theorem sliceDeadline_exact {w : TimeT} {tv : Timeval} (h : tv.Valid w) {msecs : UInt32}
    (hfits : deadlineSec tv (slice msecs).toNat < w.bound) :
    (sliceDeadline w tv msecs).sec * 1000000000 + (sliceDeadline w tv msecs).nsec =
      tv.sec * 1000000000 + tv.usec * 1000 + (slice msecs).toNat * 1000000 :=
  ((setsDeadline_iff h (Int.natCast_nonneg _)).2 hfits).exact

/-- A command that waits goes on as the loop does. -/
theorem resume_expired {s : Command} {p : Wait} (h : s.caller = .expired p) :
    resume s = some (match condTimeoutNext p.msecs (.timed p.i) etimedout with
      | .inl (.timed i) => { s with caller := .waiting { p with i := i } }
      | _ => s.finish etimedout p.wanted none) := by
  rw [resume, h, condTimeoutNext, if_neg (not_not_intro rfl)]
  dsimp only
  split
  · rfl
  · rfl

/-- The function waits exactly `n` times, and then returns. -/
def WaitsTimes (msecs : UInt32) (rets : ℕ → ℤ) (n : ℕ) : Prop :=
  (∀ m < n, Dialogue.Asks (condTimeoutNext msecs) (condTimeoutStart msecs) rets m) ∧
    ∃ r, Dialogue.after (condTimeoutNext msecs) (condTimeoutStart msecs) rets n = .inr r

/-- The function returns whatever the waits say; and when it is never signalled, its slices together
are at least `msecs` milliseconds, and not a slice more. -/
structure WaitsOut (msecs : UInt32) : Prop where
  ends : ∀ rets, Dialogue.Ends (condTimeoutNext msecs) (condTimeoutStart msecs) rets
  total : ∀ n, WaitsTimes msecs (fun _ => etimedout) n →
    msecs.toNat ≤ n * (slice msecs).toNat ∧
      n * (slice msecs).toNat < msecs.toNat + max 1 (msecs.toNat / 4)

/-! ### The slices -/

section Slices

variable {msecs : UInt32} {rets : ℕ → ℤ}

theorem toNat_slice (msecs : UInt32) : (slice msecs).toNat = max 1 (msecs.toNat / 4) := by
  have hdiv : (msecs / 4).toNat = msecs.toNat / 4 := rfl
  rw [slice]
  split
  · rename_i h
    have hzero : msecs.toNat / 4 = 0 := by
      rw [← hdiv, h]
      rfl
    rw [hzero]
    rfl
  · rename_i h
    have hne : msecs.toNat / 4 ≠ 0 := by
      intro hzero
      exact h (UInt32.toNat_inj.1 (hdiv.trans hzero))
    rw [hdiv]
    omega

/-- The loop variable after `n` slices. -/
def loopVar (msecs : UInt32) (n : ℕ) : ℕ := Stride.value (2 ^ 32) (slice msecs).toNat n

theorem loopVar_succ (n : ℕ) (i : UInt32) (hi : i.toNat = loopVar msecs n) :
    (i + slice msecs).toNat = loopVar msecs (n + 1) := by
  rw [loopVar, Stride.value_succ, UInt32.toNat_add, hi]
  rfl

theorem toNat_pos (hne : msecs ≠ 0) : 0 < msecs.toNat := by
  refine Nat.pos_of_ne_zero ?_
  intro hzero
  exact hne (UInt32.toNat_inj.1 hzero)

/-- The loop is entered. -/
theorem after_zero (hne : msecs ≠ 0) (rets : ℕ → ℤ) :
    Dialogue.after (condTimeoutNext msecs) (condTimeoutStart msecs) rets 0 = .inl (.timed 0) := by
  rw [Dialogue.after, condTimeoutStart, if_pos hne]

/-- While the function waits, the loop variable is below its limit. -/
theorem after_inl (hne : msecs ≠ 0) {n : ℕ} {s : CondWait}
    (h : Dialogue.after (condTimeoutNext msecs) (condTimeoutStart msecs) rets n = .inl s) :
    ∃ i : UInt32, s = .timed i ∧ i.toNat = loopVar msecs n ∧ loopVar msecs n < msecs.toNat := by
  induction n generalizing s with
  | zero =>
      rw [after_zero hne rets] at h
      cases h
      exact ⟨0, rfl, Stride.value_zero.symm, Stride.value_zero.trans_lt (toNat_pos hne)⟩
  | succ n ih =>
      cases hn : Dialogue.after (condTimeoutNext msecs) (condTimeoutStart msecs) rets n with
      | inr r =>
          rw [Dialogue.after_succ_of_inr hn] at h
          cases h
      | inl s' =>
          obtain ⟨i, rfl, hi, -⟩ := ih hn
          rw [Dialogue.after_succ_of_inl hn, condTimeoutNext] at h
          split at h
          · cases h
          · split at h
            · rename_i hlt
              cases h
              have hnext := loopVar_succ n i hi
              refine ⟨i + slice msecs, rfl, hnext, ?_⟩
              rw [← hnext]
              exact UInt32.lt_iff_toNat_lt.1 hlt
            · cases h

/-- The function has waited at least once. -/
theorem exists_succ_of_waitsTimes (hne : msecs ≠ 0) {n : ℕ} (h : WaitsTimes msecs rets n) :
    ∃ m, n = m + 1 := by
  obtain ⟨-, r, hr⟩ := h
  cases n with
  | zero =>
      rw [after_zero hne rets] at hr
      cases hr
  | succ m => exact ⟨m, rfl⟩

/-- When nothing is signalled, the function returns because the loop variable has come to its
limit. -/
theorem le_loopVar_of_waitsTimes (hne : msecs ≠ 0) {n : ℕ}
    (h : WaitsTimes msecs (fun _ => etimedout) n) : msecs.toNat ≤ loopVar msecs n := by
  obtain ⟨m, rfl⟩ := exists_succ_of_waitsTimes hne h
  obtain ⟨hasks, r, hr⟩ := h
  obtain ⟨s, hs⟩ := hasks m (Nat.lt_succ_self m)
  obtain ⟨i, rfl, hi, -⟩ := after_inl hne hs
  rw [Dialogue.after_succ_of_inl hs, condTimeoutNext, if_neg (not_not_intro rfl)] at hr
  split at hr
  · cases hr
  · rename_i hlt
    rw [UInt32.lt_iff_toNat_lt, loopVar_succ m i hi] at hlt
    exact not_lt.1 hlt

/-- The greatest common divisor of a slice and the size of a word is small enough. -/
theorem limit_add_gcd_le (msecs : UInt32) :
    msecs.toNat + (slice msecs).toNat.gcd (2 ^ 32) ≤ 2 ^ 32 := by
  have hlt := msecs.toNat_lt
  rw [toNat_slice]
  rcases Nat.eq_zero_or_pos (msecs.toNat / 4) with hzero | hpos
  · rw [hzero, Nat.max_eq_left (Nat.zero_le 1), Nat.gcd_one_left]
    omega
  · rw [Nat.max_eq_right hpos]
    -- It divides the slice and a power of two, so it divides what four slices leave of the word.
    have hle := Nat.gcd_le_left (2 ^ 32) hpos
    have hgcdPos := Nat.gcd_pos_of_pos_left (2 ^ 32) hpos
    obtain ⟨k, -, hk⟩ := (Nat.dvd_prime_pow Nat.prime_two).1
      (Nat.gcd_dvd_right (msecs.toNat / 4) (2 ^ 32))
    have hpow : 2 ^ k < 2 ^ 30 := by
      rw [← hk]
      omega
    have hdvd : (msecs.toNat / 4).gcd (2 ^ 32) ∣ 2 ^ 30 := by
      rw [hk]
      have hexp := (Nat.pow_lt_pow_iff_right (Nat.lt_succ_self 1)).1 hpow
      exact Nat.pow_dvd_pow 2 (Nat.le_of_lt hexp)
    have hrest := Nat.le_of_dvd (by omega)
      (Nat.dvd_sub hdvd (Nat.gcd_dvd_left (msecs.toNat / 4) (2 ^ 32)))
    omega

/-- **The loop always ends**: even when its variable runs over, it comes to its limit some time. -/
theorem condTimeout_ends (msecs : UInt32) (rets : ℕ → ℤ) :
    Dialogue.Ends (condTimeoutNext msecs) (condTimeoutStart msecs) rets := by
  rw [Dialogue.ends_iff]
  by_cases hne : msecs = 0
  · subst hne
    exact ⟨1, rets 0, rfl⟩
  · have hslice := toNat_slice msecs
    have hlt := msecs.toNat_lt
    obtain ⟨n, hn⟩ := @Stride.exists_le_value (2 ^ 32) (slice msecs).toNat (by omega) (by omega)
      msecs.toNat (limit_add_gcd_le msecs)
    cases hafter : Dialogue.after (condTimeoutNext msecs) (condTimeoutStart msecs) rets n with
    | inr r => exact ⟨n, r, hafter⟩
    | inl s =>
        obtain ⟨-, -, -, hbelow⟩ := after_inl hne hafter
        exact absurd hbelow (not_lt.2 hn)

/-- Four slices make up the time, or a fifth one fits the loop variable. -/
def FifthFits (msecs : UInt32) : Prop :=
  msecs.toNat % 4 = 0 ∨ 5 * (msecs.toNat / 4) < 2 ^ 32

instance (msecs : UInt32) : Decidable (FifthFits msecs) := inferInstanceAs (Decidable (_ ∨ _))

/-- Then the loop variable does not run over in front of its limit. -/
theorem succ_mul_slice_lt (h : FifthFits msecs) {j : ℕ}
    (hj : j * (slice msecs).toNat < msecs.toNat) : (j + 1) * (slice msecs).toNat < 2 ^ 32 := by
  have hlt := msecs.toNat_lt
  rw [toNat_slice] at hj ⊢
  rw [Nat.succ_mul]
  rcases Nat.lt_or_ge msecs.toNat 16 with hsmall | hlarge
  · omega
  · rw [Nat.max_eq_right (by omega)] at hj ⊢
    rcases Nat.lt_or_ge j 5 with hfive | hfive
    · rcases h with hfour | hfits
      · have hthree : j < 4 := by
          refine not_le.1 fun hle => ?_
          have hmul := Nat.mul_le_mul_right (msecs.toNat / 4) hle
          omega
        have hmul := Nat.mul_le_mul_right (msecs.toNat / 4) (Nat.le_of_lt_succ hthree)
        omega
      · have hmul := Nat.mul_le_mul_right (msecs.toNat / 4) (Nat.le_of_lt_succ hfive)
        omega
    · have hmul := Nat.mul_le_mul_right (msecs.toNat / 4) hfive
      omega

theorem mul_slice_lt_of_asks (h : FifthFits msecs) (hne : msecs ≠ 0) {rets : ℕ → ℤ} {n : ℕ}
    (hasks : ∀ m < n, Dialogue.Asks (condTimeoutNext msecs) (condTimeoutStart msecs) rets m) :
    ∀ m < n, m * (slice msecs).toNat < msecs.toNat := by
  intro m
  induction m with
  | zero =>
      intro _
      rw [Nat.zero_mul]
      exact toNat_pos hne
  | succ m ih =>
      intro hm
      obtain ⟨s, hs⟩ := hasks (m + 1) hm
      obtain ⟨-, -, -, hlt⟩ := after_inl hne hs
      rwa [loopVar, Stride.value_of_lt (succ_mul_slice_lt h (ih (Nat.lt_of_succ_lt hm)))] at hlt

/-- Without running over the loop variable is the time that has been waited for. -/
theorem total_of_fifthFits (h : FifthFits msecs) (hne : msecs ≠ 0) {n : ℕ}
    (hn : WaitsTimes msecs (fun _ => etimedout) n) :
    msecs.toNat ≤ n * (slice msecs).toNat ∧
      n * (slice msecs).toNat < msecs.toNat + max 1 (msecs.toNat / 4) := by
  have hlimit := le_loopVar_of_waitsTimes hne hn
  obtain ⟨m, rfl⟩ := exists_succ_of_waitsTimes hne hn
  have hlast := mul_slice_lt_of_asks h hne hn.1 m (Nat.lt_succ_self m)
  rw [loopVar, Stride.value_of_lt (succ_mul_slice_lt h hlast)] at hlimit
  refine ⟨hlimit, ?_⟩
  rw [← toNat_slice, Nat.succ_mul]
  exact Nat.add_lt_add_right hlast _

/-- When the loop variable runs over with the fifth slice, the function waits for a sixth one. -/
theorem loopVar_lt_of_not_fifthFits (h : ¬ FifthFits msecs) :
    ∀ m ≤ 5, loopVar msecs m < msecs.toNat := by
  rw [FifthFits, not_or] at h
  have hlt := msecs.toNat_lt
  have hslice : (slice msecs).toNat = msecs.toNat / 4 := by
    rw [toNat_slice]
    omega
  intro m hm
  rcases Nat.lt_or_ge m 5 with hfive | hfive
  · have hmul := Nat.mul_le_mul_right (msecs.toNat / 4) (Nat.le_of_lt_succ hfive)
    rw [loopVar, hslice, Stride.value_of_lt (by omega)]
    omega
  · obtain rfl : m = 5 := Nat.le_antisymm hm hfive
    rw [loopVar, hslice, Stride.value, Nat.mod_eq_sub_mod (not_lt.1 h.2),
      Nat.mod_eq_of_lt (by omega)]
    omega

theorem six_le_of_waitsTimes (h : ¬ FifthFits msecs) (hne : msecs ≠ 0) {n : ℕ}
    (hn : WaitsTimes msecs (fun _ => etimedout) n) : 6 ≤ n := by
  refine not_lt.1 fun hlt => ?_
  have hlimit := le_loopVar_of_waitsTimes hne hn
  have hbelow := loopVar_lt_of_not_fifthFits h n (by omega)
  omega

/-- It waits as long as it should exactly when the loop variable does not run over. -/
theorem waitsOut_iff (hne : msecs ≠ 0) : WaitsOut msecs ↔ FifthFits msecs := by
  constructor
  · intro h
    by_contra hfits
    obtain ⟨n, hn⟩ := (h.ends fun _ => etimedout).exists_returns
    have hsix := six_le_of_waitsTimes hfits hne hn
    obtain ⟨-, htotal⟩ := h.total n hn
    rw [FifthFits, not_or] at hfits
    have hmul := Nat.mul_le_mul_right (slice msecs).toNat hsix
    rw [toNat_slice] at hmul htotal
    omega
  · intro h
    exact ⟨condTimeout_ends msecs, fun n hn => total_of_fifthFits h hne hn⟩

end Slices

/-- **The time is right, and the function waits as long as it should, exactly when the second fits a
`time_t` and the loop variable does not run over.** -/
theorem timedWait_iff {w : TimeT} {tv : Timeval} (htv : tv.Valid w) {msec : ℤ} (hmsec : 1 ≤ msec)
    {msecs : UInt32} (hmsecs : msecs ≠ 0) :
    (SetsDeadline w tv msec ∧ WaitsOut msecs) ↔
      (deadlineSec tv msec < w.bound ∧ FifthFits msecs) :=
  and_congr (setsDeadline_iff htv (by omega)) (waitsOut_iff hmsecs)

/-- The last microsecond of a second. -/
def lateTime : Timeval := ⟨1735689599, 999999⟩

theorem lateTime_valid : lateTime.Valid .bits32 where
  sec_ge := by decide
  sec_lt := by decide
  usec_nonneg := by decide
  usec_lt := by decide

/-- Two minutes from then, and half a minute in slices. -/
theorem timedWait_lateTime : SetsDeadline .bits32 lateTime 120000 ∧ WaitsOut 30000 :=
  (timedWait_iff lateTime_valid (by decide) (by decide)).2 ⟨by decide, by decide⟩

/-- The longest time of all is not a multiple of four, and the fifth slice runs over. -/
theorem not_waitsOut : ¬ ∀ (w : TimeT) (tv : Timeval) (msec : ℤ) (msecs : UInt32), tv.Valid w →
    1 ≤ msec → msec ≤ 120000 → 1 ≤ msecs → SetsDeadline w tv msec ∧ WaitsOut msecs := by
  intro hall
  obtain ⟨-, hwaits⟩ := hall .bits32 lateTime 1 0xFFFFFFFF lateTime_valid (by decide) (by decide)
    (by decide)
  have hfits := (waitsOut_iff (by decide)).1 hwaits
  revert hfits
  decide

end QuectelCM

/-
**Numbers from a counter, and fixed ones.**

Things in a row get numbers: some a fixed one, and each of the others the next one of a counter.
The counter knows nothing of the fixed numbers, so it can come to one of them.

* `Numbering.Ask`, `Numbering.numbers` — what a thing asks for, and what all of them get;
* `Numbering.numbers_cons` — one thing after the other;
* `Numbering.numbers_perm` — the fixed numbers, and those from the beginning of the counter on;
* `Numbering.forall_numbers_iff`, `Numbering.nodup_numbers_iff` — **when all numbers are in a range,
  and when they are different**.
-/
import Mathlib.Data.List.Nodup
import Mathlib.Data.List.Range

set_option relaxedAutoImplicit false
set_option autoImplicit false

namespace Numbering

/-- What a thing asks for. -/
inductive Ask where
  | fixed (n : ℕ)
  | next
  | nothing
  deriving DecidableEq

/-- The numbers that are given out, when the counter is at `k`. -/
def numbers : ℕ → List Ask → List ℕ
  | _, [] => []
  | k, .fixed n :: as => n :: numbers k as
  | k, .next :: as => k :: numbers (k + 1) as
  | k, .nothing :: as => numbers k as

/-- The fixed number, if it is one. -/
def Ask.fixed? : Ask → Option ℕ
  | .fixed n => some n
  | _ => none

/-- How many things take the next number. -/
def nexts (as : List Ask) : ℕ := as.count .next

/-- A thing gets its number from where the counter is, and the others go on from behind it. -/
theorem numbers_cons (k : ℕ) (a : Ask) (as : List Ask) :
    numbers k (a :: as) = numbers k [a] ++ numbers (k + nexts [a]) as := by
  cases a <;> rfl

/-- In another order, these are the fixed numbers and the ones that the counter goes through. -/
theorem numbers_perm (k : ℕ) (as : List Ask) :
    (numbers k as).Perm (as.filterMap Ask.fixed? ++ List.range' k (nexts as)) := by
  induction as generalizing k with
  | nil => exact .refl _
  | cons a as ih =>
      cases a with
      | fixed n =>
          rw [numbers, @List.filterMap_cons_some _ _ Ask.fixed? (.fixed n) as n rfl, nexts,
            List.count_cons_of_ne Ask.noConfusion]
          exact (ih k).cons n
      | next =>
          rw [numbers, @List.filterMap_cons_none _ _ Ask.fixed? .next as rfl, nexts,
            List.count_cons_self, List.range'_succ]
          exact ((ih (k + 1)).cons k).trans List.perm_middle.symm
      | nothing =>
          rw [numbers, @List.filterMap_cons_none _ _ Ask.fixed? .nothing as rfl, nexts,
            List.count_cons_of_ne Ask.noConfusion]
          exact ih k

variable {k : ℕ} {as : List Ask}

theorem forall_numbers_iff {p : ℕ → Prop} :
    (∀ n ∈ numbers k as, p n) ↔
      (∀ n ∈ as.filterMap Ask.fixed?, p n) ∧ ∀ n, k ≤ n → n < k + nexts as → p n := by
  have hmem : ∀ n, n ∈ numbers k as ↔
      n ∈ as.filterMap Ask.fixed? ∨ k ≤ n ∧ n < k + nexts as := by
    intro n
    rw [(numbers_perm k as).mem_iff, List.mem_append, List.mem_range'_1]
  constructor
  · intro h
    refine ⟨fun n hn => h n ((hmem n).2 (.inl hn)), ?_⟩
    intro n hle hlt
    exact h n ((hmem n).2 (.inr ⟨hle, hlt⟩))
  · rintro ⟨hfixed, hnext⟩ n hn
    rcases (hmem n).1 hn with hn | ⟨hle, hlt⟩
    · exact hfixed n hn
    · exact hnext n hle hlt

/-- **All numbers are different exactly when the fixed ones are, and the counter does not come to
one of them.** -/
theorem nodup_numbers_iff :
    (numbers k as).Nodup ↔ (as.filterMap Ask.fixed?).Nodup ∧
      ∀ n ∈ as.filterMap Ask.fixed?, n < k ∨ k + nexts as ≤ n := by
  rw [(numbers_perm k as).nodup_iff, List.nodup_append]
  constructor
  · rintro ⟨hfixed, -, happart⟩
    refine ⟨hfixed, ?_⟩
    intro n hn
    by_contra hin
    rw [not_or, not_lt, not_le] at hin
    exact happart n hn n (List.mem_range'_1.2 hin) rfl
  · rintro ⟨hfixed, hout⟩
    refine ⟨hfixed, List.nodup_range', ?_⟩
    rintro n hn m hm rfl
    have hin := List.mem_range'_1.1 hm
    have := hout n hn
    omega

end Numbering

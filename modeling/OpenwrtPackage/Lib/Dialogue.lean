/-
**Programs that ask, and are answered.**

A program that sends a request and waits for its answer is a function of the state it waits in: with
the answer it either waits again, for the answer to another request, or returns.  The environment is
the stream of all answers that it would give.

* `Dialogue.after` — where the program is after a number of answers;
* `Dialogue.Asks`, `Dialogue.Ends` — it sends a request with this number, and only finitely many;
* `Dialogue.ends_iff` — it ends when it returns;
* `Dialogue.after_add` — the rest of a dialogue is a dialogue;
* `Dialogue.loop_ends_iff` — **a loop ends exactly when one of its rounds leaves it**.
-/
import Mathlib.Data.Finite.Defs
import Mathlib.Data.Set.Finite.Basic
import Mathlib.Order.Interval.Set.Infinite

set_option relaxedAutoImplicit false
set_option autoImplicit false

namespace Dialogue

variable {σ α ρ : Type*} {next : σ → α → σ ⊕ ρ}

/-- Where the program is after `n` answers: waiting in a state, or at its result. -/
def after (next : σ → α → σ ⊕ ρ) (start : σ ⊕ ρ) (answers : ℕ → α) : ℕ → σ ⊕ ρ
  | 0 => start
  | n + 1 =>
      match after next start answers n with
      | .inl s => next s (answers n)
      | .inr r => .inr r

/-- The program sends the request with the number `n`. -/
def Asks (next : σ → α → σ ⊕ ρ) (start : σ ⊕ ρ) (answers : ℕ → α) (n : ℕ) : Prop :=
  ∃ s, after next start answers n = .inl s

/-- The program sends only finitely many requests. -/
def Ends (next : σ → α → σ ⊕ ρ) (start : σ ⊕ ρ) (answers : ℕ → α) : Prop :=
  {n | Asks next start answers n}.Finite

variable {start : σ ⊕ ρ} {answers : ℕ → α}

theorem after_succ_of_inl {n : ℕ} {s : σ} (h : after next start answers n = .inl s) :
    after next start answers (n + 1) = next s (answers n) := by
  rw [after, h]

theorem after_succ_of_inr {n : ℕ} {r : ρ} (h : after next start answers n = .inr r) :
    after next start answers (n + 1) = .inr r := by
  rw [after, h]

/-- The rest of a dialogue is a dialogue. -/
theorem after_add (m n : ℕ) :
    after next start answers (m + n) =
      after next (after next start answers m) (fun k => answers (m + k)) n := by
  induction n with
  | zero => rfl
  | succ n ih =>
      rw [← Nat.add_assoc, after, after, ih]

/-- A program that has returned does not ask again. -/
theorem after_of_inr {m : ℕ} {r : ρ} (h : after next start answers m = .inr r) {n : ℕ}
    (hle : m ≤ n) : after next start answers n = .inr r := by
  induction n, hle using Nat.le_induction with
  | base => exact h
  | succ n _ ih => exact after_succ_of_inr ih

/-- Requests are sent in a row. -/
theorem Asks.of_le {m n : ℕ} (hle : m ≤ n) (h : Asks next start answers n) :
    Asks next start answers m := by
  cases hm : after next start answers m with
  | inl s => exact ⟨s, hm⟩
  | inr r =>
      obtain ⟨s, hs⟩ := h
      rw [after_of_inr hm hle] at hs
      cases hs

/-- A program sends finitely many requests exactly when it returns. -/
theorem ends_iff : Ends next start answers ↔ ∃ n r, after next start answers n = .inr r := by
  constructor
  · intro h
    by_contra hnone
    have hall : ∀ n, Asks next start answers n := by
      intro n
      cases hn : after next start answers n with
      | inl s => exact ⟨s, hn⟩
      | inr r => exact absurd ⟨n, r, hn⟩ hnone
    have huniv : {n | Asks next start answers n} = Set.univ := Set.eq_univ_of_forall hall
    rw [Ends, huniv] at h
    exact Set.infinite_univ h
  · rintro ⟨m, r, hm⟩
    refine (Set.finite_lt_nat m).subset fun n hn => ?_
    by_contra hlt
    obtain ⟨s, hs⟩ := Asks.of_le (not_lt.1 hlt) hn
    rw [hm] at hs
    cases hs

/-- A program that ends returns behind the last of its requests. -/
theorem Ends.exists_returns (h : Ends next start answers) :
    ∃ n, (∀ m < n, Asks next start answers m) ∧ ∃ r, after next start answers n = .inr r := by
  classical
  have hreturns := ends_iff.1 h
  refine ⟨Nat.find hreturns, ?_, Nat.find_spec hreturns⟩
  intro m hm
  cases hafter : after next start answers m with
  | inl s => exact ⟨s, hafter⟩
  | inr r => exact absurd ⟨r, hafter⟩ (Nat.find_min hreturns hm)

/-- Whether a dialogue ends does not depend on where one begins to look. -/
theorem ends_after_iff (m : ℕ) :
    Ends next (after next start answers m) (fun k => answers (m + k)) ↔
      Ends next start answers := by
  rw [ends_iff, ends_iff]
  constructor
  · rintro ⟨n, r, h⟩
    exact ⟨m + n, r, by rw [after_add, h]⟩
  · rintro ⟨n, r, h⟩
    refine ⟨n, r, ?_⟩
    rw [← after_add]
    exact after_of_inr h (Nat.le_add_left _ _)

section Loop

variable {head : σ} {period : ℕ} {Again : (ℕ → α) → Prop}

/-- As long as its rounds go on, the program comes back to the head of the loop. -/
theorem after_mul (hback : ∀ answers, Again answers →
      after next (.inl head) answers period = .inl head) {k : ℕ}
    (h : ∀ j < k, Again fun n => answers (period * j + n)) :
    after next (.inl head) answers (period * k) = .inl head := by
  induction k with
  | zero => rfl
  | succ k ih =>
      have hk := ih fun j hj => h j (Nat.lt_succ_of_lt hj)
      rw [Nat.mul_succ, after_add, hk]
      exact hback _ (h k (Nat.lt_succ_self k))

/-- **A loop ends exactly when one of its rounds does not go on**, if a round that goes on leads
back to its head, and one that does not leads out of it. -/
theorem loop_ends_iff (hperiod : 0 < period)
    (hback : ∀ answers, Again answers → after next (.inl head) answers period = .inl head)
    (hleave : ∀ answers, ¬ Again answers → Ends next (.inl head) answers) :
    Ends next (.inl head) answers ↔ ∃ k, ¬ Again fun n => answers (period * k + n) := by
  classical
  constructor
  · intro h
    by_contra hall
    have hgo : ∀ k, Again fun n => answers (period * k + n) := by
      intro k
      by_contra hk
      exact hall ⟨k, hk⟩
    obtain ⟨n, r, hn⟩ := ends_iff.1 h
    have hhead := @after_mul _ _ _ next answers head period Again hback n fun j _ => hgo j
    rw [after_of_inr hn (Nat.le_mul_of_pos_left n hperiod)] at hhead
    cases hhead
  · intro h
    -- The first round that does not go on is reached at the head of the loop.
    have hfirst := Nat.find_spec h
    have hbefore : ∀ j < Nat.find h, Again fun n => answers (period * j + n) := by
      intro j hj
      exact not_not.1 (Nat.find_min h hj)
    rw [← ends_after_iff (period * Nat.find h), after_mul hback hbefore]
    exact hleave _ hfirst

end Loop

end Dialogue

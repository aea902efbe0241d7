/-
**What the shell cuts off a word.**

`${s%c*}` is a word up to the last of some sign, `${s#*c}` what is behind the first one, and
`${s##*c}` what is behind the last one; a word without the sign stays as it is.

* `Expansion.beforeLast`, `Expansion.afterFirst`, `Expansion.afterLast`;
* `Expansion.beforeLast_append`, `Expansion.afterLast_append` — where the last sign is known;
* `Expansion.eq_of_once` — **a word that has the sign once is put together again**.
-/
import Mathlib.Data.List.TakeWhile

set_option relaxedAutoImplicit false
set_option autoImplicit false

namespace Expansion

variable {α : Type*} [DecidableEq α]

/-- `${s#*c}` -/
def afterFirst (c : α) : List α → List α
  | [] => []
  | d :: s => if d = c then s else if c ∈ s then afterFirst c s else d :: s

/-- `${s%c*}` -/
def beforeLast (c : α) : List α → List α
  | [] => []
  | d :: s => if c ∈ s then d :: beforeLast c s else if d = c then [] else d :: s

/-- `${s##*c}` -/
def afterLast (c : α) : List α → List α
  | [] => []
  | d :: s => if c ∈ s then afterLast c s else if d = c then s else d :: s

variable {c : α}

theorem afterFirst_append {a : List α} (h : c ∉ a) (b : List α) :
    afterFirst c (a ++ c :: b) = b := by
  induction a with
  | nil => rw [List.nil_append, afterFirst, if_pos rfl]
  | cons d a ih =>
      obtain ⟨hd, ha⟩ := List.ne_and_not_mem_of_not_mem_cons h
      rw [List.cons_append, afterFirst, if_neg (Ne.symm hd), if_pos (by simp), ih ha]

theorem beforeLast_append (a : List α) {b : List α} (h : c ∉ b) :
    beforeLast c (a ++ c :: b) = a := by
  induction a with
  | nil => rw [List.nil_append, beforeLast, if_neg h, if_pos rfl]
  | cons d a ih => rw [List.cons_append, beforeLast, if_pos (by simp), ih]

theorem afterLast_append (a : List α) {b : List α} (h : c ∉ b) :
    afterLast c (a ++ c :: b) = b := by
  induction a with
  | nil => rw [List.nil_append, afterLast, if_neg h, if_pos rfl]
  | cons d a ih => rw [List.cons_append, afterLast, if_pos (by simp), ih]

/-- **A word that has the sign once is put together again.** -/
theorem eq_of_once {s : List α} (h : s.count c = 1) :
    beforeLast c s ++ c :: afterFirst c s = s := by
  have hmem : c ∈ s := List.count_pos_iff.1 (by omega)
  obtain ⟨a, b, rfl⟩ := List.append_of_mem hmem
  rw [List.count_append, List.count_cons_self] at h
  have ha : c ∉ a := List.count_eq_zero.1 (by omega)
  have hb : c ∉ b := List.count_eq_zero.1 (by omega)
  rw [beforeLast_append a hb, afterFirst_append ha]

end Expansion

/-
**Folds.**

A loop over a list that keeps a state: what is true of the state and of the elements that have been
seen, a part of the state that does not look at the rest of it, and a variable that is assigned.

* `Fold.invariant` — an invariant of the state and what has been seen;
* `Fold.part_eq` — a part of the state that is a fold of its own;
* `Fold.perm_of_writer`, `Fold.part_perm` — **what is always assigned the same value does not depend
  on the order**;
* `Fold.eq_of_writer` — the value at the end.
-/
import Mathlib.Data.List.Induction
import Mathlib.Data.List.Perm.Basic

set_option relaxedAutoImplicit false
set_option autoImplicit false

namespace Fold

variable {σ τ α : Type*}

/-- What each step keeps is true at the end, of all the elements. -/
theorem invariant {step : σ → α → σ} {start : σ} {I : σ → List α → Prop} (hstart : I start [])
    (hstep : ∀ s seen x, I s seen → I (step s x) (seen ++ [x])) (l : List α) :
    I (l.foldl step start) l := by
  induction l using List.reverseRecOn with
  | nil => exact hstart
  | append_singleton l x ih =>
      rw [List.foldl_concat]
      exact hstep _ _ x ih

/-- A variable to which every writer of the list writes the same does not depend on the order. -/
theorem perm_of_writer {writes : α → Prop} [DecidablePred writes] {value : α → τ}
    {l l' : List α} (hperm : l.Perm l')
    (hsame : ∀ x ∈ l, ∀ y ∈ l, writes x → writes y → value x = value y) (t : τ) :
    l.foldl (fun t x => if writes x then value x else t) t =
      l'.foldl (fun t x => if writes x then value x else t) t := by
  refine hperm.foldl_eq' (fun x hx y hy t => ?_) t
  by_cases hxw : writes x <;> by_cases hyw : writes y
  · simp only [hxw, hyw, if_true, hsame x hx y hy hxw hyw]
  · simp only [hxw, hyw, if_true, if_false]
  · simp only [hxw, hyw, if_true, if_false]
  · simp only [hxw, hyw, if_false]

/-- A part of the state that is a fold of its own. -/
theorem part_eq {step : σ → α → σ} {part : σ → τ} {partStep : τ → α → τ} {l : List α}
    (h : ∀ s, ∀ x ∈ l, part (step s x) = partStep (part s) x) (s : σ) :
    part (l.foldl step s) = l.foldl partStep (part s) := by
  induction l generalizing s with
  | nil => rfl
  | cons x l ih =>
      rw [List.foldl_cons, ih fun s y hy => h s y (List.mem_cons_of_mem _ hy), List.foldl_cons,
        h s x (List.mem_cons_self ..)]

/-- Such a part, written as an assignment. -/
theorem part_perm {step : σ → α → σ} {part : σ → τ} {writes : α → Prop} [DecidablePred writes]
    {value : α → τ} {l l' : List α} (hperm : l.Perm l')
    (h : ∀ s, ∀ x ∈ l, part (step s x) = if writes x then value x else part s)
    (hsame : ∀ x ∈ l, ∀ y ∈ l, writes x → writes y → value x = value y) (s : σ) :
    part (l.foldl step s) = part (l'.foldl step s) := by
  have h' : ∀ s, ∀ x ∈ l', part (step s x) = if writes x then value x else part s :=
    fun s x hx => h s x (hperm.mem_iff.2 hx)
  rw [@part_eq σ τ α step part (fun t x => if writes x then value x else t) l h,
    @part_eq σ τ α step part (fun t x => if writes x then value x else t) l' h']
  exact perm_of_writer hperm hsame _

/-- A value that some writer of the list writes, when all write the same. -/
theorem eq_of_writer {writes : α → Prop} [DecidablePred writes] {c : τ} {l : List α}
    (h : ∃ x ∈ l, writes x) (t : τ) :
    l.foldl (fun t x => if writes x then c else t) t = c := by
  have hkept : ∀ l : List α, l.foldl (fun t x => if writes x then c else t) c = c := by
    intro l
    induction l with
    | nil => rfl
    | cons x l ih => rw [List.foldl_cons, ite_self, ih]
  induction l generalizing t with
  | nil => simp at h
  | cons x l ih =>
      rw [List.foldl_cons]
      by_cases hx : writes x
      · rw [if_pos hx, hkept]
      · obtain ⟨y, hy, hyw⟩ := h
        rcases List.mem_cons.1 hy with rfl | hy
        · exact absurd hyw hx
        · exact ih ⟨y, hy, hyw⟩ _

end Fold

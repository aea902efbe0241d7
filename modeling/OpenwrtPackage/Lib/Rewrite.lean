/-
**Rewriting a text.**

An occurrence of a pattern in a text is replaced by another text, as long as there is one.  What is
put in may stand next to what is left and make a new occurrence, so a text without one is found step
by step and not in one pass.

* `Rewrite.find` — the place where the pattern occurs first;
* `Rewrite.Step`, `Rewrite.Rewrites` — one occurrence is replaced, and some are, one by one;
* `Rewrite.exists_step_iff` — a text without the pattern is one that cannot be rewritten;
* `Rewrite.Rewrites.length_le`, `Rewrite.Rewrites.sublist` — **rewriting to a shorter text shortens,
  and what is only left out leaves the rest in order**.
-/
import Mathlib.Data.List.Basic
import Mathlib.Logic.Relation

set_option relaxedAutoImplicit false
set_option autoImplicit false

namespace Rewrite

variable {α : Type*}

/-! ### The first occurrence -/

/-- The place where the pattern occurs first. -/
def find [DecidableEq α] (pat : List α) : List α → Option ℕ
  | [] => if pat = [] then some 0 else none
  | c :: s => if pat.isPrefixOf (c :: s) then some 0 else (find pat s).map (· + 1)

theorem find_eq_none_iff [DecidableEq α] {pat s : List α} :
    find pat s = none ↔ ¬ pat <:+: s := by
  induction s with
  | nil =>
      rw [find, List.infix_nil]
      split
      · rename_i h
        exact iff_of_false (fun hnone => by cases hnone) (not_not_intro h)
      · rename_i h
        exact iff_of_true rfl h
  | cons c s ih =>
      rw [find, List.infix_cons_iff]
      split
      · rename_i h
        refine iff_of_false (fun hnone => by cases hnone) ?_
        exact not_not_intro (.inl (List.isPrefixOf_iff_prefix.1 h))
      · rename_i h
        rw [Option.map_eq_none_iff, ih, not_or, ← List.isPrefixOf_iff_prefix]
        exact ⟨fun hnone => ⟨h, hnone⟩, fun hboth => hboth.2⟩

/-- The text in front of the place, the pattern, and the text behind it. -/
theorem find_eq_some [DecidableEq α] {pat s : List α} {p : ℕ} (h : find pat s = some p) :
    ∃ a b, s = a ++ (pat ++ b) ∧ a.length = p := by
  induction s generalizing p with
  | nil =>
      rw [find] at h
      split at h
      · rename_i hpat
        cases h
        exact ⟨[], [], by rw [hpat]; rfl, rfl⟩
      · cases h
  | cons c s ih =>
      rw [find] at h
      split at h
      · rename_i hprefix
        cases h
        obtain ⟨b, hb⟩ := List.isPrefixOf_iff_prefix.1 hprefix
        exact ⟨[], b, hb.symm, rfl⟩
      · obtain ⟨q, hq, rfl⟩ := Option.map_eq_some_iff.1 h
        obtain ⟨a, b, rfl, rfl⟩ := ih hq
        exact ⟨c :: a, b, rfl, rfl⟩

/-! ### Steps -/

/-- One occurrence of the pattern is replaced. -/
def Step (pat rep s t : List α) : Prop := ∃ a b, s = a ++ (pat ++ b) ∧ t = a ++ (rep ++ b)

/-- Occurrences are replaced one by one, those that come up on the way included. -/
def Rewrites (pat rep : List α) : List α → List α → Prop := Relation.ReflTransGen (Step pat rep)

section Steps

variable {pat rep s t : List α}

/-- A text can be rewritten as long as the pattern occurs in it. -/
theorem exists_step_iff : (∃ t, Step pat rep s t) ↔ pat <:+: s := by
  constructor
  · rintro ⟨t, a, b, rfl, -⟩
    exact List.infix_append' a pat b
  · rintro ⟨a, b, rfl⟩
    exact ⟨a ++ (rep ++ b), a, b, List.append_assoc a pat b, rfl⟩

theorem Step.length (h : Step pat rep s t) : t.length + pat.length = s.length + rep.length := by
  obtain ⟨a, b, rfl, rfl⟩ := h
  simp only [List.length_append]
  omega

theorem Step.sublist (hsub : rep.Sublist pat) (h : Step pat rep s t) : t.Sublist s := by
  obtain ⟨a, b, rfl, rfl⟩ := h
  exact (List.Sublist.refl a).append (hsub.append (List.Sublist.refl b))

/-- Rewriting to something that is not longer. -/
theorem Rewrites.length_le (hle : rep.length ≤ pat.length) (h : Rewrites pat rep s t) :
    t.length ≤ s.length := by
  induction h with
  | refl => exact Nat.le_refl _
  | tail _ hstep ih =>
      have hlength := hstep.length
      omega

/-- Rewriting to a part of the pattern leaves everything else where it is. -/
theorem Rewrites.sublist (hsub : rep.Sublist pat) (h : Rewrites pat rep s t) : t.Sublist s := by
  induction h with
  | refl => exact List.Sublist.refl _
  | tail _ hstep ih => exact (hstep.sublist hsub).trans ih

/-- A text without the pattern stays as it is. -/
theorem Rewrites.eq_of_not_infix (hno : ¬ pat <:+: s) (h : Rewrites pat rep s t) : t = s := by
  rcases h.cases_head with heq | ⟨u, hstep, -⟩
  · exact heq.symm
  · exact absurd (exists_step_iff.1 ⟨u, hstep⟩) hno

end Steps

end Rewrite

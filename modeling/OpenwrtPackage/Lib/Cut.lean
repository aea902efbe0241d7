/-
**A message in pieces.**

A channel that takes only `n` elements at a time carries a longer message in pieces: all of them
full but the last, and none empty.

* `Pieces.Cut` — the pieces of a message;
* `Pieces.Cut.flatten` — put together they are the message.
-/
import Mathlib.Data.List.Basic
import Mathlib.Data.Nat.Notation

set_option relaxedAutoImplicit false
set_option autoImplicit false

namespace Pieces

variable {α : Type*}

/-- The message is cut into the pieces, in order: `n` elements each, and in the last one up to
`n`. -/
inductive Cut (n : ℕ) : List α → List (List α) → Prop
  | last {m : List α} (hne : m ≠ []) (hlen : m.length ≤ n) : Cut n m [m]
  | more {p rest : List α} {ps : List (List α)} (hlen : p.length = n) (hrest : Cut n rest ps) :
      Cut n (p ++ rest) (p :: ps)

variable {n : ℕ} {m : List α} {ps : List (List α)}

theorem Cut.ne_nil (h : Cut n m ps) : m ≠ [] := by
  induction h with
  | last hne _ => exact hne
  | more _ _ ih => exact fun hnil => ih (List.append_eq_nil_iff.1 hnil).2

theorem Cut.pieces_ne_nil (h : Cut n m ps) : ps ≠ [] := by
  cases h <;> exact List.cons_ne_nil _ _

theorem Cut.flatten (h : Cut n m ps) : ps.flatten = m := by
  induction h with
  | last _ _ => exact List.append_nil _
  | more _ _ ih => rw [List.flatten_cons, ih]

end Pieces

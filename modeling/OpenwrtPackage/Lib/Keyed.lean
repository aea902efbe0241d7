/-
**Lists whose elements are known by a key.**

A table kept as a list, searched by a key that no two of its elements share: selecting by a key
finds at most one element, and removing the first element with a key removes all of them.

* `Keyed.filter_eq_singleton` — selecting by the key of an element finds just that element;
* `Keyed.filter_eq_nil` — selecting by a key that is not there finds nothing;
* `Keyed.find?_eq_of_mem` — searching for the key of an element finds that element;
* `Keyed.flatMap_eq_of_mem` — a loop that does something for one key only does it once;
* `Keyed.updateFirst` — the first element that passes a test is replaced;
* `Keyed.eraseP_eq_filter` — the first element with a key is the only one;
* `Keyed.countP_eraseP` — removing the first element that passes a test, in any list.
-/
import Mathlib.Data.List.Nodup

set_option relaxedAutoImplicit false
set_option autoImplicit false

namespace Keyed

variable {α κ : Type*} {key : α → κ} {l : List α}

/-- A loop over the table whose body does nothing but at the key of `x` does what it does at
`x`. -/
theorem flatMap_eq_of_mem {β : Type*} {f : α → List β} (hn : (l.map key).Nodup) {x : α}
    (hx : x ∈ l) (hf : ∀ y ∈ l, key y ≠ key x → f y = []) : l.flatMap f = f x := by
  induction l with
  | nil => simp at hx
  | cons y l ih =>
      rw [List.map_cons, List.nodup_cons] at hn
      rw [List.flatMap_cons]
      rcases List.mem_cons.1 hx with rfl | hx
      · have hrest : l.flatMap f = [] := by
          refine List.flatMap_eq_nil_iff.2 fun z hz => hf z (List.mem_cons_of_mem _ hz) fun hk => ?_
          exact hn.1 (hk ▸ List.mem_map_of_mem hz)
        rw [hrest, List.append_nil]
      · have hne : key y ≠ key x := fun hk => hn.1 (hk ▸ List.mem_map_of_mem hx)
        rw [hf y (List.mem_cons_self ..) hne, List.nil_append,
          ih hn.2 hx fun z hz => hf z (List.mem_cons_of_mem _ hz)]

/-- The first element that passes the test is replaced by its image. -/
def updateFirst (p : α → Bool) (f : α → α) : List α → List α
  | [] => []
  | x :: l => if p x then f x :: l else x :: updateFirst p f l

/-- A replacement that keeps the keys leaves the table of keys as it is. -/
theorem map_updateFirst {p : α → Bool} {f : α → α} (hf : ∀ x, key (f x) = key x) (l : List α) :
    (updateFirst p f l).map key = l.map key := by
  induction l with
  | nil => rfl
  | cons x l ih =>
      rw [updateFirst]
      split
      · rw [List.map_cons, List.map_cons, hf]
      · rw [List.map_cons, List.map_cons, ih]

/-- An element that is found by the test stands between those before it, which are kept, and those
after it. -/
theorem exists_updateFirst_eq {p : α → Bool} {x : α} (h : l.find? p = some x) :
    ∃ before after, l = before ++ x :: after ∧ (∀ y ∈ before, p y = false) ∧ p x = true ∧
      (∀ f : α → α, updateFirst p f l = before ++ f x :: after) ∧
        l.eraseP p = before ++ after := by
  induction l with
  | nil => simp at h
  | cons y l ih =>
      cases hy : p y with
      | true =>
          rw [List.find?_cons_of_pos hy, Option.some_inj] at h
          subst h
          exact ⟨[], l, rfl, by simp, hy, fun f => by simp [updateFirst, hy], by simp [hy]⟩
      | false =>
          rw [List.find?_cons_of_neg (by simp [hy])] at h
          obtain ⟨before, after, rfl, hbefore, hx, hupdate, herase⟩ := ih h
          refine ⟨y :: before, after, rfl, ?_, hx, fun f => ?_, ?_⟩
          · intro z hz
            rcases List.mem_cons.1 hz with rfl | hz
            · exact hy
            · exact hbefore z hz
          · simp [updateFirst, hy, hupdate f]
          · simp [hy, herase]

variable [DecidableEq κ]

theorem filter_eq_nil {k : κ} (h : k ∉ l.map key) : l.filter (fun x => key x = k) = [] := by
  rw [List.filter_eq_nil_iff]
  intro x hx hk
  exact h (List.mem_map.2 ⟨x, hx, by simpa using hk⟩)

theorem filter_eq_singleton (hn : (l.map key).Nodup) {x : α} (hx : x ∈ l) :
    l.filter (fun y => key y = key x) = [x] := by
  induction l with
  | nil => simp at hx
  | cons y l ih =>
      rw [List.map_cons, List.nodup_cons] at hn
      rcases List.mem_cons.1 hx with rfl | hx
      · rw [List.filter_cons_of_pos (by simp), filter_eq_nil hn.1]
      · have hne : ¬ key y = key x := fun h => hn.1 (h ▸ List.mem_map_of_mem hx)
        rw [List.filter_cons_of_neg (by simpa using hne), ih hn.2 hx]

theorem find?_eq_of_mem (hn : (l.map key).Nodup) {x : α} (hx : x ∈ l) :
    l.find? (fun y => key y = key x) = some x := by
  rw [← List.head?_filter, filter_eq_singleton hn hx]
  rfl

theorem eraseP_eq_filter (hn : (l.map key).Nodup) (k : κ) :
    l.eraseP (fun x => key x = k) = l.filter (fun x => key x ≠ k) := by
  induction l with
  | nil => rfl
  | cons y l ih =>
      rw [List.map_cons, List.nodup_cons] at hn
      by_cases h : key y = k
      · subst h
        rw [List.eraseP_cons_of_pos (by simp), List.filter_cons_of_neg (by simp)]
        refine (List.filter_eq_self.2 fun x hx => ?_).symm
        have hne : ¬ key x = key y := fun h => hn.1 (h ▸ List.mem_map_of_mem hx)
        simpa using hne
      · rw [List.eraseP_cons_of_neg (by simpa using h), List.filter_cons_of_pos (by simpa using h),
          ih hn.2]

/-- Removing the first element that passes a test leaves one fewer that does. -/
theorem countP_eraseP (p : α → Bool) (l : List α) : (l.eraseP p).countP p = l.countP p - 1 := by
  induction l with
  | nil => rfl
  | cons x l ih =>
      by_cases h : p x
      · rw [List.eraseP_cons_of_pos h, List.countP_cons_of_pos h, Nat.add_sub_cancel]
      · rw [List.eraseP_cons_of_neg h, List.countP_cons_of_neg h, List.countP_cons_of_neg h, ih]

end Keyed

/-
**Handing out the least free number.**

A server numbers what it creates.  It keeps a table of the numbers in use, from 1 up to the size of
the table, and gives out the least one that is free.

* `FirstFree.firstFree` — the least free number;
* `FirstFree.Records` — a table that says of each number whether it is in use;
* `FirstFree.Records.take`, `FirstFree.Records.release` — the table after a number has been given
  out, or taken back;
* `FirstFree.Records.exists_firstFree` — **while fewer numbers are in use than there are, there is a
  free one, and it is small**;
* `FirstFree.Records.firstFree_eq_none` — when all are in use, there is none.
-/
import Mathlib.Data.List.Nodup
import Mathlib.Data.List.Perm.Subperm
import Mathlib.Logic.Function.Basic

set_option relaxedAutoImplicit false
set_option autoImplicit false

namespace FirstFree

/-- The least number from 1 to `size - 1` that is not taken. -/
def firstFree (size : ℕ) (taken : ℕ → Bool) : Option ℕ :=
  (List.range' 1 (size - 1)).find? fun id => !taken id

theorem firstFree_some {size : ℕ} {taken : ℕ → Bool} {id : ℕ}
    (h : firstFree size taken = some id) : 1 ≤ id ∧ id < size ∧ taken id = false := by
  have hfree : taken id = false := by simpa using List.find?_some h
  have hmem := List.mem_range'_1.1 (List.mem_of_find?_eq_some h)
  exact ⟨hmem.1, by omega, hfree⟩

/-- The numbers below the least free one are taken. -/
theorem taken_of_lt {size : ℕ} {taken : ℕ → Bool} {id j : ℕ}
    (h : firstFree size taken = some id) (h1 : 1 ≤ j) (hj : j < id) : taken j = true := by
  obtain ⟨-, before, after, heq, hbefore⟩ := List.find?_eq_some_iff_append.1 h
  have hlt : id < size := (firstFree_some h).2.1
  have hmem : j ∈ List.range' 1 (size - 1) := List.mem_range'_1.2 ⟨h1, by omega⟩
  have hsorted : (List.range' 1 (size - 1)).Pairwise (· < ·) := List.pairwise_lt_range'
  rw [heq] at hmem hsorted
  rcases List.mem_append.1 hmem with hmem | hmem
  · simpa using hbefore j hmem
  · -- behind `id` the numbers are larger
    rcases List.mem_cons.1 hmem with rfl | hmem
    · exact absurd hj (Nat.lt_irrefl _)
    · have hafter := (List.pairwise_append.1 hsorted).2.1
      have := List.rel_of_pairwise_cons hafter hmem
      omega

theorem firstFree_none {size : ℕ} {taken : ℕ → Bool} (h : firstFree size taken = none) {j : ℕ}
    (h1 : 1 ≤ j) (hj : j < size) : taken j = true := by
  have hall := List.find?_eq_none.1 h j (List.mem_range'_1.2 ⟨h1, by omega⟩)
  simpa using hall

/-- A list that has all numbers from 1 to `n` has at least `n` elements. -/
theorem le_length_of_forall_mem {n : ℕ} {l : List ℕ} (h : ∀ j, 1 ≤ j → j ≤ n → j ∈ l) :
    n ≤ l.length := by
  have hsub : List.range' 1 n ⊆ l := fun j hj => by
    have := List.mem_range'_1.1 hj
    exact h j this.1 (by omega)
  have hle := (List.subperm_of_subset List.nodup_range' hsub).length_le
  rwa [List.length_range'] at hle

/-- A list of different numbers from 1 to `n` that has `n` elements has all of them. -/
theorem mem_of_le_length {n : ℕ} {l : List ℕ} (hn : l.Nodup) (hrange : ∀ j ∈ l, 1 ≤ j ∧ j ≤ n)
    (hlen : n ≤ l.length) {j : ℕ} (h1 : 1 ≤ j) (hj : j ≤ n) : j ∈ l := by
  have hsub : l ⊆ List.range' 1 n := fun k hk =>
    List.mem_range'_1.2 ⟨(hrange k hk).1, by have := (hrange k hk).2; omega⟩
  have hperm := (List.subperm_of_subset hn hsub).perm_of_length_le (by simpa using hlen)
  exact hperm.mem_iff.2 (List.mem_range'_1.2 ⟨h1, by omega⟩)

/-- There are at most `n` different numbers from 1 to `n`. -/
theorem length_le_of_forall_lt {n : ℕ} {l : List ℕ} (hn : l.Nodup)
    (hrange : ∀ j ∈ l, 1 ≤ j ∧ j ≤ n) : l.length ≤ n := by
  have hsub : l ⊆ List.range' 1 n := fun k hk =>
    List.mem_range'_1.2 ⟨(hrange k hk).1, by have := (hrange k hk).2; omega⟩
  have hle := (List.subperm_of_subset hn hsub).length_le
  rwa [List.length_range'] at hle

/-- The table `taken` of the numbers below `size` has those of `ids` and no others, and none of
them is given out twice. -/
structure Records (size : ℕ) (taken : ℕ → Bool) (ids : List ℕ) : Prop where
  nodup : ids.Nodup
  range : ∀ id ∈ ids, 1 ≤ id ∧ id < size
  taken_iff : ∀ id, 1 ≤ id → id < size → (taken id = true ↔ id ∈ ids)

namespace Records

variable {size : ℕ} {taken : ℕ → Bool} {ids : List ℕ}

theorem perm (h : Records size taken ids) {ids' : List ℕ} (hp : ids.Perm ids') :
    Records size taken ids' where
  nodup := hp.nodup_iff.1 h.nodup
  range id hid := h.range id (hp.mem_iff.2 hid)
  taken_iff id h1 hlt := (h.taken_iff id h1 hlt).trans hp.mem_iff

theorem not_mem_firstFree (h : Records size taken ids) {id : ℕ}
    (hfree : firstFree size taken = some id) : id ∉ ids := by
  obtain ⟨h1, hlt, hnot⟩ := firstFree_some hfree
  intro hmem
  rw [(h.taken_iff id h1 hlt).2 hmem] at hnot
  exact Bool.noConfusion hnot

/-- The free number is given out. -/
theorem take (h : Records size taken ids) {id : ℕ} (hfree : firstFree size taken = some id) :
    Records size (Function.update taken id true) (id :: ids) := by
  have hnot := h.not_mem_firstFree hfree
  obtain ⟨h1, hlt, -⟩ := firstFree_some hfree
  refine ⟨List.nodup_cons.2 ⟨hnot, h.nodup⟩, ?_, ?_⟩
  · intro j hj
    rcases List.mem_cons.1 hj with rfl | hj
    · exact ⟨h1, hlt⟩
    · exact h.range j hj
  · intro j hj1 hjlt
    by_cases hji : j = id
    · subst hji
      simp
    · rw [Function.update_of_ne hji, h.taken_iff j hj1 hjlt, List.mem_cons]
      exact ⟨Or.inr, fun hmem => hmem.resolve_left hji⟩

/-- A number in use is taken back. -/
theorem release (h : Records size taken ids) (id : ℕ) :
    Records size (Function.update taken id false) (ids.erase id) := by
  refine ⟨h.nodup.erase id, fun j hj => h.range j (List.mem_of_mem_erase hj), ?_⟩
  intro j hj1 hjlt
  rw [h.nodup.mem_erase_iff]
  by_cases hji : j = id
  · subst hji
    simp
  · rw [Function.update_of_ne hji, h.taken_iff j hj1 hjlt]
    exact ⟨fun hmem => ⟨hji, hmem⟩, fun hmem => hmem.2⟩

/-- **While fewer numbers are in use than there are, one is free**, and it is at most one more than
the count of those in use. -/
theorem exists_firstFree (h : Records size taken ids) (hroom : ids.length + 1 < size) :
    ∃ id, firstFree size taken = some id ∧ id ≤ ids.length + 1 := by
  cases hfree : firstFree size taken with
  | none =>
      -- all numbers are taken, so there are as many in use
      exfalso
      have hle : size - 1 ≤ ids.length := le_length_of_forall_mem fun j h1 hj =>
        (h.taken_iff j h1 (by omega)).1 (firstFree_none hfree h1 (by omega))
      omega
  | some id =>
      have hlt := (firstFree_some hfree).2.1
      have hle : id - 1 ≤ ids.length := le_length_of_forall_mem fun j h1 hj =>
        (h.taken_iff j h1 (by omega)).1 (taken_of_lt hfree h1 (by omega))
      exact ⟨id, rfl, by omega⟩

/-- When all numbers are in use, none is free. -/
theorem firstFree_eq_none (h : Records size taken ids) (hfull : size ≤ ids.length + 1) :
    firstFree size taken = none := by
  cases hfree : firstFree size taken with
  | none => rfl
  | some id =>
      exfalso
      obtain ⟨h1, hlt, -⟩ := firstFree_some hfree
      refine h.not_mem_firstFree hfree (mem_of_le_length h.nodup (n := size - 1) ?_ ?_ h1 ?_)
      · intro j hj
        have := h.range j hj
        omega
      · omega
      · omega

end Records

end FirstFree

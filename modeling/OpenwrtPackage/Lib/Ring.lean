/-
**Doubly linked rings.**

An intrusive list in C is a ring: a head that carries no item, and the items, each pointing to the
next and to the previous one.  The pointers live in a memory that is shared with everything else,
so what a store to one of them does to the ring depends on whether the nodes are different.

* `Ring.Links`, `Ring.IsRing` — the pointers of all nodes, and a ring of given items;
* `Ring.IsRing.linked_of_append` — where the pointers lead;
* `Ring.isRing_init`, `Ring.isRing_addTail`, `Ring.isRing_remove` — the operations on a ring;
* `Ring.find`, `Ring.find_eq` — a search through the ring finds the first item of a kind.
-/
import Mathlib.Data.List.Chain
import Mathlib.Data.List.Nodup
import Mathlib.Logic.Function.Basic

set_option relaxedAutoImplicit false
set_option autoImplicit false

namespace Ring

variable {α : Type*}

/-- The two pointers of each node. -/
structure Links (α : Type*) where
  next : α → α
  prev : α → α

/-- `b` stands behind `a`. -/
def Linked (l : Links α) (a b : α) : Prop := l.next a = b ∧ l.prev b = a

/-- From the head the pointers lead through the items and back to the head. -/
structure IsRing (l : Links α) (head : α) (xs : List α) : Prop where
  nodup : (head :: xs).Nodup
  linked : (head :: (xs ++ [head])).IsChain (Linked l)

/-- Other pointers link the same nodes, when they are the same where they are used. -/
theorem isChain_congr {l l' : Links α} {xs : List α} (h : xs.IsChain (Linked l))
    (hnext : ∀ a ∈ xs.dropLast, l'.next a = l.next a)
    (hprev : ∀ b ∈ xs.tail, l'.prev b = l.prev b) :
    xs.IsChain (Linked l') := by
  induction xs with
  | nil => exact .nil
  | cons a xs ih =>
      cases xs with
      | nil => exact .singleton a
      | cons b xs =>
          rw [List.isChain_cons_cons] at h ⊢
          rw [List.dropLast_cons_cons] at hnext
          refine ⟨⟨?_, ?_⟩, ih h.2 ?_ ?_⟩
          · rw [hnext a (List.mem_cons_self ..), h.1.1]
          · rw [hprev b (List.mem_cons_self ..), h.1.2]
          · intro c hc
            exact hnext c (List.mem_cons_of_mem _ hc)
          · intro c hc
            exact hprev c (List.mem_cons_of_mem _ hc)

/-- At each place of a ring the two neighbours point to each other. -/
theorem IsRing.linked_of_append {l : Links α} {head : α} {ys zs : List α}
    (h : IsRing l head (ys ++ zs)) : Linked l (ys.getLastD head) (zs.headD head) := by
  have hlinked := h.linked
  rw [List.append_assoc, ← List.cons_append] at hlinked
  have hrel := hlinked.rel_getLast_head_of_append (List.cons_ne_nil _ _) (by simp)
  rw [List.getLast_eq_getLastD] at hrel
  cases zs with
  | nil => exact hrel
  | cons z zs => exact hrel

theorem IsRing.next_head {l : Links α} {head : α} {xs : List α} (h : IsRing l head xs) :
    l.next head = xs.headD head :=
  (@IsRing.linked_of_append α l head [] xs h).1

theorem IsRing.next_item {l : Links α} {head item : α} {ys zs : List α}
    (h : IsRing l head (ys ++ item :: zs)) : l.next item = zs.headD head := by
  rw [List.append_cons] at h
  have hlinked := h.linked_of_append
  rw [List.getLastD_concat] at hlinked
  exact hlinked.1

theorem IsRing.item_ne_head {l : Links α} {head item : α} {ys zs : List α}
    (h : IsRing l head (ys ++ item :: zs)) : item ≠ head := by
  rintro rfl
  exact (List.nodup_cons.1 h.nodup).1 (by simp)

/-- Of the nodes in front of a place, only the last one points to it. -/
theorem ne_getLastD_of_mem {xs : List α} {head a : α} (hnodup : (head :: xs).Nodup)
    (ha : a ∈ (head :: xs).dropLast) : a ≠ xs.getLastD head := by
  rw [← List.getLast_eq_getLastD (List.cons_ne_nil _ _)]
  rw [← List.dropLast_append_getLast (List.cons_ne_nil head xs)] at hnodup
  have hdisjoint := (List.nodup_append.1 hnodup).2.2
  exact hdisjoint a ha _ (List.mem_singleton_self _)

theorem getLast?_cons_eq (head : α) (xs : List α) :
    (head :: xs).getLast? = some (xs.getLastD head) := by
  rw [List.getLast?_eq_some_getLast (List.cons_ne_nil _ _), List.getLast_eq_getLastD]

theorem getLastD_mem (head : α) (xs : List α) : xs.getLastD head ∈ head :: xs :=
  List.mem_of_getLast? (getLast?_cons_eq head xs)

theorem head?_concat_eq (head : α) (zs : List α) :
    (zs ++ [head]).head? = some (zs.headD head) := by
  cases zs with
  | nil => rfl
  | cons z zs => rfl

/-! ### The operations -/

section Operations

variable [DecidableEq α]

def Links.setNext (l : Links α) (a b : α) : Links α := { l with next := Function.update l.next a b }

def Links.setPrev (l : Links α) (a b : α) : Links α := { l with prev := Function.update l.prev a b }

/-- A ring without items. -/
def init (l : Links α) (head : α) : Links α := (l.setNext head head).setPrev head head

/-- The item is put between the last item and the head. -/
def addTail (l : Links α) (head item : α) : Links α :=
  let l := l.setNext item head
  let l := l.setPrev item (l.prev head)
  let l := l.setNext (l.prev head) item
  l.setPrev head item

/-- The neighbours of the item are linked to each other. -/
def remove (l : Links α) (item : α) : Links α :=
  let l := l.setPrev (l.next item) (l.prev item)
  l.setNext (l.prev item) (l.next item)

theorem isRing_init (l : Links α) (head : α) : IsRing (init l head) head [] where
  nodup := List.nodup_singleton head
  linked := List.isChain_pair.2 ⟨Function.update_self .., Function.update_self ..⟩

/-- A ring does not notice what is done to other nodes. -/
theorem isRing_init_of_not_mem {l : Links α} {head a : α} {xs : List α} (h : IsRing l head xs)
    (ha : a ∉ head :: xs) : IsRing (init l a) head xs := by
  have hne : ∀ b ∈ head :: (xs ++ [head]), b ≠ a := by
    rintro b hb rfl
    refine ha ?_
    rcases List.mem_cons.1 hb with rfl | hb
    · exact List.mem_cons_self ..
    · rcases List.mem_append.1 hb with hb | hb
      · exact List.mem_cons_of_mem _ hb
      · rw [List.mem_singleton.1 hb]
        exact List.mem_cons_self ..
  refine ⟨h.nodup, isChain_congr h.linked ?_ ?_⟩
  · intro b hb
    exact Function.update_of_ne (hne b (List.dropLast_subset _ hb)) _ _
  · intro b hb
    exact Function.update_of_ne (hne b (List.mem_of_mem_tail hb)) _ _

theorem remove_eq (l : Links α) (item : α) :
    remove l item =
      ⟨Function.update l.next (l.prev item) (l.next item),
        Function.update l.prev (l.next item) (l.prev item)⟩ := by
  have hprev : Function.update l.prev (l.next item) (l.prev item) item = l.prev item := by
    by_cases h : item = l.next item
    · rw [← h, Function.update_self]
    · exact Function.update_of_ne h _ _
  show Links.mk (Function.update l.next (Function.update l.prev (l.next item) (l.prev item) item)
    (l.next item)) _ = _
  rw [hprev]
  rfl

theorem addTail_eq (l : Links α) {head item : α} (h : item ≠ head) :
    addTail l head item =
      ⟨Function.update (Function.update l.next item head) (l.prev head) item,
        Function.update (Function.update l.prev item (l.prev head)) head item⟩ := by
  show Links.mk (Function.update _ (Function.update l.prev item (l.prev head) head) item) _ = _
  rw [Function.update_of_ne h.symm]
  rfl

/-- An item behind the others. -/
theorem isRing_addTail {l : Links α} {head item : α} {xs : List α} (h : IsRing l head xs)
    (hitem : item ∉ head :: xs) : IsRing (addTail l head item) head (xs ++ [item]) := by
  have hne : item ≠ head := fun heq => hitem (heq ▸ List.mem_cons_self ..)
  have hlast : l.prev head = xs.getLastD head :=
    (@IsRing.linked_of_append α l head xs [] (by rwa [List.append_nil])).2
  have hp : item ≠ xs.getLastD head := fun heq => hitem (heq ▸ getLastD_mem head xs)
  rw [addTail_eq l hne, hlast]
  refine ⟨?_, ?_⟩
  · rw [← List.cons_append]
    refine h.nodup.append (List.nodup_singleton item) ?_
    intro a ha hmem
    exact hitem (List.mem_singleton.1 hmem ▸ ha)
  · rw [List.append_assoc, ← List.cons_append]
    have hlinked := h.linked
    rw [← List.cons_append] at hlinked
    refine (isChain_congr hlinked.left_of_append ?_ ?_).append (List.isChain_pair.2 ⟨?_, ?_⟩) ?_
    · intro a ha
      have hne' : a ≠ item := by
        rintro rfl
        exact hitem (List.dropLast_subset _ ha)
      show Function.update _ _ _ a = _
      rw [Function.update_of_ne (ne_getLastD_of_mem h.nodup ha), Function.update_of_ne hne']
    · intro b hb
      have hne' : b ≠ head := by
        rintro rfl
        exact (List.nodup_cons.1 h.nodup).1 hb
      have hne'' : b ≠ item := by
        rintro rfl
        exact hitem (List.mem_cons_of_mem _ hb)
      show Function.update _ _ _ b = _
      rw [Function.update_of_ne hne', Function.update_of_ne hne'']
    · show Function.update (Function.update l.next item head) _ item item = head
      rw [Function.update_of_ne hp, Function.update_self]
    · exact Function.update_self ..
    · intro a ha b hb
      rw [getLast?_cons_eq] at ha
      cases ha
      cases hb
      refine ⟨Function.update_self .., ?_⟩
      show Function.update (Function.update l.prev item _) head item item = _
      rw [Function.update_of_ne hne, Function.update_self]

/-- The items that are left. -/
theorem isRing_remove {l : Links α} {head item : α} {ys zs : List α}
    (h : IsRing l head (ys ++ item :: zs)) : IsRing (remove l item) head (ys ++ zs) := by
  have hprev : l.prev item = ys.getLastD head := h.linked_of_append.2
  have hnext : l.next item = zs.headD head := h.next_item
  have hnodup : (head :: ys ++ item :: zs).Nodup := h.nodup
  obtain ⟨hfront, hback, hdisjoint⟩ := List.nodup_append.1 hnodup
  have hlinked := h.linked
  rw [List.append_assoc, ← List.cons_append] at hlinked
  rw [remove_eq, hprev, hnext]
  refine ⟨?_, ?_⟩
  · rw [← List.cons_append]
    exact hnodup.sublist ((List.Sublist.refl _).append (List.sublist_cons_self item zs))
  · rw [List.append_assoc, ← List.cons_append]
    refine (isChain_congr hlinked.left_of_append ?_ ?_).append
      (isChain_congr hlinked.right_of_append.tail ?_ ?_) ?_
    · intro a ha
      exact Function.update_of_ne (ne_getLastD_of_mem hfront ha) _ _
    · -- What stands behind the item is the head, or stands in front of no other item.
      intro b hb
      refine Function.update_of_ne ?_ _ _
      cases zs with
      | nil =>
          rintro rfl
          exact (List.nodup_cons.1 hfront).1 hb
      | cons z zs =>
          exact hdisjoint b (List.mem_cons_of_mem _ hb) z (by simp)
    · intro a ha
      rw [List.dropLast_concat] at ha
      exact Function.update_of_ne
        (fun heq => hdisjoint _ (getLastD_mem head ys) a (List.mem_cons_of_mem _ ha) heq.symm) _ _
    · intro b hb
      refine Function.update_of_ne ?_ _ _
      cases zs with
      | nil => cases hb
      | cons z zs =>
          rw [List.cons_append, List.tail_cons] at hb
          rcases List.mem_append.1 hb with hb | hb
          · rintro rfl
            exact (List.nodup_cons.1 (List.nodup_cons.1 hback).2).1 hb
          · rw [List.mem_singleton.1 hb]
            exact hdisjoint head (List.mem_cons_self ..) z (by simp)
    · intro a ha b hb
      rw [getLast?_cons_eq] at ha
      rw [head?_concat_eq] at hb
      cases ha
      cases hb
      exact ⟨Function.update_self .., Function.update_self ..⟩

end Operations

/-! ### Searching -/

section Search

variable [DecidableEq α]

/-- From `a` on, the first node with `p` is looked for; `none` when the fuel is not enough. -/
def find (l : Links α) (head : α) (p : α → Bool) : ℕ → α → Option (Option α)
  | 0, _ => none
  | fuel + 1, a =>
      if a = head then some none
      else if p a then some (some a)
      else find l head p fuel (l.next a)

/-- The search from a place of the ring finds the first item behind it. -/
theorem find_eq {l : Links α} {head : α} (p : α → Bool) {ys zs : List α}
    (h : IsRing l head (ys ++ zs)) {fuel : ℕ} (hfuel : zs.length < fuel) :
    find l head p fuel (zs.headD head) = some (zs.find? p) := by
  induction zs generalizing ys fuel with
  | nil =>
      obtain ⟨fuel, rfl⟩ := Nat.exists_eq_succ_of_ne_zero (Nat.ne_zero_of_lt hfuel)
      exact if_pos rfl
  | cons z zs ih =>
      obtain ⟨fuel, rfl⟩ := Nat.exists_eq_succ_of_ne_zero (Nat.ne_zero_of_lt hfuel)
      rw [List.headD_cons, find, if_neg h.item_ne_head, List.find?_cons]
      cases hp : p z with
      | true => rfl
      | false =>
          rw [if_neg Bool.false_ne_true, h.next_item]
          rw [List.append_cons] at h
          exact ih h (Nat.lt_of_succ_lt_succ hfuel)

end Search

end Ring

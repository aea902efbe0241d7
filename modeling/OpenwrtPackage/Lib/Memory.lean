/-
**Flat memory.**

A C program that puts a message together writes through pointers into one memory, field by field,
and a later write can cover part of an earlier one.  The memory is a function from addresses to
bytes.

* `Memory.store`, `Memory.load` — bytes are written from an address on, and read;
* `Memory.store_of_lt`, `Memory.store_of_ge` — the frame of a write;
* `Memory.load_store_self`, `Memory.load_store_mid` — what has been written is read back;
* `Memory.load_store_of_le` — what lies in front of a write stays;
* `Memory.load_append` — two pieces that lie one behind the other;
* `Memory.Holds`, `Memory.holds_append` — bytes that stand in the memory;
* `Memory.stores`, `Memory.stores_frame_iff` — what a sequence of writes leaves alone;
* `Memory.load_stores_self` — a piece that none of the later ones covers.
-/
import Mathlib.Data.List.Basic
import Mathlib.Logic.Function.Basic
import Mathlib.Logic.Nontrivial.Defs

set_option relaxedAutoImplicit false
set_option autoImplicit false

namespace Memory

variable {β : Type*}

/-- The bytes `bs` are written to `p, p + 1, …`. -/
def store (mem : ℕ → β) (p : ℕ) : List β → ℕ → β
  | [] => mem
  | b :: bs => store (Function.update mem p b) (p + 1) bs

/-- The `n` bytes from `p` on. -/
def load (mem : ℕ → β) (p n : ℕ) : List β := (List.range n).map fun i => mem (p + i)

theorem store_cons (mem : ℕ → β) (p : ℕ) (b : β) (bs : List β) :
    store mem p (b :: bs) = store (Function.update mem p b) (p + 1) bs := rfl

theorem store_of_lt (mem : ℕ → β) {p i : ℕ} (bs : List β) (h : i < p) :
    store mem p bs i = mem i := by
  induction bs generalizing mem p with
  | nil => rfl
  | cons b bs ih =>
      rw [store_cons, ih _ (by omega)]
      exact Function.update_of_ne (by omega) _ _

theorem store_of_ge (mem : ℕ → β) {p i : ℕ} (bs : List β) (h : p + bs.length ≤ i) :
    store mem p bs i = mem i := by
  induction bs generalizing mem p with
  | nil => rfl
  | cons b bs ih =>
      rw [List.length_cons] at h
      rw [store_cons, ih _ (by omega)]
      exact Function.update_of_ne (by omega) _ _

theorem store_append (mem : ℕ → β) (p : ℕ) (bs cs : List β) :
    store mem p (bs ++ cs) = store (store mem p bs) (p + bs.length) cs := by
  induction bs generalizing mem p with
  | nil => rfl
  | cons b bs ih =>
      rw [List.cons_append, store_cons, ih, store_cons, List.length_cons]
      congr 1
      omega

@[simp] theorem load_zero (mem : ℕ → β) (p : ℕ) : load mem p 0 = [] := rfl

@[simp] theorem length_load (mem : ℕ → β) (p n : ℕ) : (load mem p n).length = n := by
  simp [load]

theorem load_succ (mem : ℕ → β) (p n : ℕ) : load mem p (n + 1) = mem p :: load mem (p + 1) n := by
  simp only [load, List.range_succ_eq_map, List.map_cons, List.map_map, Nat.add_zero]
  congr 1
  refine List.map_congr_left fun i _ => ?_
  rw [Function.comp_apply, Nat.succ_eq_add_one]
  congr 1
  omega

theorem load_congr {mem mem' : ℕ → β} {p n : ℕ} (h : ∀ i, p ≤ i → i < p + n → mem i = mem' i) :
    load mem p n = load mem' p n := by
  refine List.map_congr_left fun i hi => ?_
  have hlt := List.mem_range.1 hi
  exact h _ (by omega) (by omega)

/-- What is read is the same exactly when every byte is. -/
theorem load_eq_iff {mem mem' : ℕ → β} {p q n : ℕ} :
    load mem p n = load mem' q n ↔ ∀ i < n, mem (p + i) = mem' (q + i) := by
  rw [load, load, List.map_inj_left]
  simp only [List.mem_range]

theorem load_append (mem : ℕ → β) (p m n : ℕ) :
    load mem p (m + n) = load mem p m ++ load mem (p + m) n := by
  induction m generalizing p with
  | zero => simp
  | succ m ih =>
      have hcount : m + 1 + n = m + n + 1 := by omega
      have hplace : p + 1 + m = p + (m + 1) := by omega
      rw [hcount, load_succ, ih, load_succ, List.cons_append, hplace]

theorem load_store_self (mem : ℕ → β) (p : ℕ) (bs : List β) :
    load (store mem p bs) p bs.length = bs := by
  induction bs generalizing mem p with
  | nil => rfl
  | cons b bs ih =>
      rw [List.length_cons, load_succ, store_cons, ih, store_of_lt _ _ (by omega)]
      rw [Function.update_self]

theorem load_store_of_le (mem : ℕ → β) {p q n : ℕ} (bs : List β) (h : q + n ≤ p) :
    load (store mem p bs) q n = load mem q n :=
  load_congr fun _ _ hi => store_of_lt mem bs (by omega)

/-- A write leaves what lies behind it. -/
theorem load_store_of_ge (mem : ℕ → β) {p q n : ℕ} (bs : List β) (h : p + bs.length ≤ q) :
    load (store mem p bs) q n = load mem q n :=
  load_congr fun _ hi _ => store_of_ge mem bs (by omega)

/-- A write that goes beyond what is read. -/
theorem load_store_append (mem : ℕ → β) (p : ℕ) (bs cs : List β) :
    load (store mem p (bs ++ cs)) p bs.length = bs := by
  rw [store_append, load_store_of_le _ _ (by omega), load_store_self]

/-- A piece in the middle of what has been written. -/
theorem load_store_mid (mem : ℕ → β) (p : ℕ) (xs ys zs : List β) :
    load (store mem p (xs ++ (ys ++ zs))) (p + xs.length) ys.length = ys := by
  rw [store_append, load_store_append]

/-- What is written over itself. -/
theorem store_load (mem : ℕ → β) (p n : ℕ) : store mem p (load mem p n) = mem := by
  induction n generalizing p with
  | zero => rfl
  | succ n ih =>
      rw [load_succ, store_cons, Function.update_eq_self]
      exact ih (p + 1)

/-- The front of what has been read. -/
theorem take_load (mem : ℕ → β) (p : ℕ) {m n : ℕ} (h : m ≤ n) :
    (load mem p n).take m = load mem p m := by
  obtain ⟨k, rfl⟩ := Nat.exists_eq_add_of_le h
  rw [load_append]
  exact List.take_left' (length_load mem p m)

/-- What has been read, without its front. -/
theorem drop_load (mem : ℕ → β) (p m n : ℕ) : (load mem p (m + n)).drop m = load mem (p + m) n := by
  rw [load_append]
  exact List.drop_left' (length_load mem p m)

/-- The front of what has been written. -/
theorem load_store_take (mem : ℕ → β) (p : ℕ) {bs : List β} {n : ℕ} (h : n ≤ bs.length) :
    load (store mem p bs) p n = bs.take n := by
  rw [← take_load _ _ h, load_store_self]

/-- All of a front that has been written. -/
theorem load_store_front (mem : ℕ → β) (p : ℕ) {bs : List β} {n : ℕ} (h : n ≤ bs.length) :
    load (store mem p (bs.take n)) p n = bs.take n := by
  have hlen := List.length_take_of_le h
  rw [load_store_take mem p (Nat.le_of_eq hlen.symm), List.take_take, Nat.min_self]

/-! ### What stands in the memory -/

/-- These bytes stand at `p`. -/
def Holds (mem : ℕ → β) (p : ℕ) (bs : List β) : Prop := load mem p bs.length = bs

theorem holds_nil (mem : ℕ → β) (p : ℕ) : Holds mem p [] := rfl

theorem holds_load (mem : ℕ → β) (p n : ℕ) : Holds mem p (load mem p n) := by
  rw [Holds, length_load]

theorem holds_append {mem : ℕ → β} {p : ℕ} {bs cs : List β} :
    Holds mem p (bs ++ cs) ↔ Holds mem p bs ∧ Holds mem (p + bs.length) cs := by
  rw [Holds, List.length_append, load_append]
  constructor
  · intro h
    exact List.append_inj h (length_load mem p _)
  · intro h
    exact congrArg₂ (· ++ ·) h.1 h.2

theorem holds_cons {mem : ℕ → β} {p : ℕ} {b : β} {bs : List β} :
    Holds mem p (b :: bs) ↔ mem p = b ∧ Holds mem (p + 1) bs := by
  rw [Holds, List.length_cons, load_succ, List.cons.injEq, Holds]

theorem Holds.congr {mem mem' : ℕ → β} {p : ℕ} {bs : List β} (h : Holds mem p bs)
    (hsame : ∀ i, p ≤ i → i < p + bs.length → mem' i = mem i) : Holds mem' p bs :=
  (load_congr hsame).trans h

/-! ### A sequence of writes -/

/-- The pieces are written one after the other, each at its address. -/
def stores (mem : ℕ → β) (ws : List (ℕ × List β)) : ℕ → β :=
  ws.foldl (fun mem w => store mem w.1 w.2) mem

/-- A piece ends in front of `limit`, or is empty. -/
def Below (limit : ℕ) (w : ℕ × List β) : Prop := w.2 = [] ∨ w.1 + w.2.length ≤ limit

/-- A byte that is written does not depend on what has been there. -/
theorem store_covered (mem mem' : ℕ → β) {p i : ℕ} {bs : List β} (h : p ≤ i)
    (hlt : i < p + bs.length) : store mem p bs i = store mem' p bs i := by
  induction bs generalizing mem mem' p with
  | nil => simp only [List.length_nil] at hlt; omega
  | cons b bs ih =>
      rw [List.length_cons] at hlt
      rw [store_cons, store_cons]
      by_cases hi : i = p
      · subst hi
        rw [store_of_lt _ _ (Nat.lt_succ_self i), store_of_lt _ _ (Nat.lt_succ_self i),
          Function.update_self, Function.update_self]
      · exact ih _ _ (by omega) (by omega)

/-- Nor does it depend on other bytes. -/
theorem store_local {mem mem' : ℕ → β} {i : ℕ} (h : mem i = mem' i) (p : ℕ) (bs : List β) :
    store mem p bs i = store mem' p bs i := by
  by_cases hi : p ≤ i ∧ i < p + bs.length
  · exact store_covered mem mem' hi.1 hi.2
  · by_cases hlt : i < p
    · rw [store_of_lt _ _ hlt, store_of_lt _ _ hlt, h]
    · rw [store_of_ge _ _ (by omega), store_of_ge _ _ (by omega), h]

section

variable {ws : List (ℕ × List β)} {i limit : ℕ}

theorem stores_cons (mem : ℕ → β) (w : ℕ × List β) (ws : List (ℕ × List β)) :
    stores mem (w :: ws) = stores (store mem w.1 w.2) ws := rfl

theorem stores_append (mem : ℕ → β) (ws ws' : List (ℕ × List β)) :
    stores mem (ws ++ ws') = stores (stores mem ws) ws' :=
  List.foldl_append

theorem stores_local {mem mem' : ℕ → β} (h : mem i = mem' i) (ws : List (ℕ × List β)) :
    stores mem ws i = stores mem' ws i := by
  induction ws generalizing mem mem' with
  | nil => exact h
  | cons w ws ih => exact ih (store_local h w.1 w.2)

/-- A byte at which no piece is written. -/
theorem stores_of_apart (h : ∀ w ∈ ws, i < w.1 ∨ w.1 + w.2.length ≤ i) (mem : ℕ → β) :
    stores mem ws i = mem i := by
  induction ws generalizing mem with
  | nil => rfl
  | cons w ws ih =>
      rw [stores_cons, ih fun v hv => h v (List.mem_cons_of_mem _ hv)]
      rcases h w (List.mem_cons_self ..) with hlt | hle
      · exact store_of_lt _ _ hlt
      · exact store_of_ge _ _ hle

theorem stores_of_below (h : ∀ w ∈ ws, Below limit w) (hi : limit ≤ i) (mem : ℕ → β) :
    stores mem ws i = mem i := by
  refine stores_of_apart (fun w hw => ?_) mem
  rcases h w hw with hnil | hend
  · rw [hnil, List.length_nil]
    omega
  · omega

theorem stores_covered (h : ∃ w ∈ ws, w.1 ≤ i ∧ i < w.1 + w.2.length) (mem mem' : ℕ → β) :
    stores mem ws i = stores mem' ws i := by
  induction ws generalizing mem mem' with
  | nil => simp at h
  | cons w ws ih =>
      rw [stores_cons, stores_cons]
      obtain ⟨v, hv, hle, hlt⟩ := h
      rcases List.mem_cons.1 hv with rfl | hv
      · exact stores_local (store_covered mem mem' hle hlt) ws
      · exact ih ⟨v, hv, hle, hlt⟩ _ _

/-- **The memory from `limit` on stays, whatever it is, exactly when every piece ends in front.** -/
theorem stores_frame_iff [Nontrivial β] :
    (∀ (mem : ℕ → β) (i : ℕ), limit ≤ i → stores mem ws i = mem i) ↔ ∀ w ∈ ws, Below limit w := by
  constructor
  · intro h w hw
    by_contra hnot
    rw [Below, not_or] at hnot
    have hpos := List.length_pos_of_ne_nil hnot.1
    obtain ⟨a, b, hne⟩ := exists_pair_ne β
    -- the last byte of the piece is the same in two memories that differ everywhere
    have hlast := @stores_covered β ws (w.1 + w.2.length - 1) ⟨w, hw, by omega, by omega⟩
      (fun _ => a) (fun _ => b)
    rw [h _ _ (by omega), h _ _ (by omega)] at hlast
    exact hne hlast
  · intro h mem i hi
    exact stores_of_below h hi mem

/-- A piece is written apart from the `n` bytes at `p`. -/
def Apart (p n : ℕ) (w : ℕ × List β) : Prop := w.1 + w.2.length ≤ p ∨ p + n ≤ w.1

theorem load_stores_of_apart {p n : ℕ} (h : ∀ w ∈ ws, Apart p n w) (mem : ℕ → β) :
    load (stores mem ws) p n = load mem p n := by
  refine load_congr fun j hp hj => stores_of_apart (fun w hw => ?_) mem
  have happart := h w hw
  rw [Apart] at happart
  omega

/-- A piece is read back when the ones behind it are written apart from it. -/
theorem load_stores_self {w : ℕ × List β} {ws' : List (ℕ × List β)}
    (h : ∀ v ∈ ws', Apart w.1 w.2.length v) (mem : ℕ → β) (ws : List (ℕ × List β)) :
    load (stores mem (ws ++ w :: ws')) w.1 w.2.length = w.2 := by
  rw [stores_append, stores_cons, load_stores_of_apart h, load_store_self]

end

end Memory

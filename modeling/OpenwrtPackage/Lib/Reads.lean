/-
**Programs that read memory.**

Whether a function stays inside a buffer is a question about the places it looks at, which a
function on values does not show.  Here such a function is a tree: it is done with a value, or it
looks at a place and goes on with what it finds there.  A loop gets fuel and returns no value when
the fuel has run out.

* `Reads` — the trees; `Reads.run` — the value in a memory; `Reads.Within` — every place that is
  looked at satisfies a condition;
* `Reads.byte`, `Reads.bytes`, `Reads.look`, `Reads.gather`, `Reads.le16` — readers;
* `Reads.when`, `Reads.optional`, `Reads.times` — a reader on a condition, and one that is repeated;
* `Reads.run_bind`, `Reads.within_bind` — one program behind another;
* `Reads.within_congr` — **only the places that are looked at matter**;
* `Reads.within_prefix_congr` — a program that stays in the front of a memory stays in any memory
  with that front;
* `Reads.within_bytes`, `Reads.within_le16` — the places of a field.
-/
import OpenwrtPackage.Lib.Bytes
import OpenwrtPackage.Lib.Memory

set_option relaxedAutoImplicit false
set_option autoImplicit false

universe u v

inductive Reads (β : Type v) (α : Type u) : Type (max u v) where
  | done (a : α)
  | read (p : ℕ) (k : β → Reads β α)

namespace Reads

variable {β : Type v} {α γ : Type u} {mem mem' : ℕ → β} {P Q : ℕ → Prop}

/-- The value in this memory. -/
def run (mem : ℕ → β) : Reads β α → α
  | done a => a
  | read p k => (k (mem p)).run mem

/-- Every place that is looked at in this memory satisfies the condition. -/
def Within (P : ℕ → Prop) (mem : ℕ → β) : Reads β α → Prop
  | done _ => True
  | read p k => P p ∧ (k (mem p)).Within P mem

protected def bind : Reads β α → (α → Reads β γ) → Reads β γ
  | done a, f => f a
  | read p k, f => read p fun b => (k b).bind f

instance : Monad (Reads β) where
  pure := done
  bind := Reads.bind

/-! ### One behind another -/

@[simp] theorem run_pure (a : α) : run mem (pure a : Reads β α) = a := rfl

@[simp] theorem within_pure (a : α) : Within P mem (pure a : Reads β α) := trivial

@[simp] theorem run_bind (r : Reads β α) (f : α → Reads β γ) :
    run mem (r >>= f) = run mem (f (run mem r)) := by
  induction r with
  | done a => rfl
  | read p k ih => exact ih (mem p)

@[simp] theorem within_bind (r : Reads β α) (f : α → Reads β γ) :
    Within P mem (r >>= f) ↔ Within P mem r ∧ Within P mem (f (run mem r)) := by
  induction r with
  | done a => exact ⟨fun h => ⟨trivial, h⟩, And.right⟩
  | read p k ih =>
      have hrest := ih (mem p)
      exact ⟨fun h => ⟨⟨h.1, (hrest.1 h.2).1⟩, (hrest.1 h.2).2⟩,
        fun h => ⟨h.1.1, hrest.2 ⟨h.1.2, h.2⟩⟩⟩

@[simp] theorem run_map (f : α → γ) (r : Reads β α) : run mem (f <$> r) = f (run mem r) :=
  run_bind r _

@[simp] theorem within_map (f : α → γ) (r : Reads β α) :
    Within P mem (f <$> r) ↔ Within P mem r :=
  (within_bind r _).trans (and_iff_left trivial)

theorem run_ite (c : Prop) [Decidable c] (r s : Reads β α) :
    run mem (if c then r else s) = if c then run mem r else run mem s :=
  apply_ite (run mem) c r s

theorem within_ite (c : Prop) [Decidable c] (r s : Reads β α) :
    Within P mem (if c then r else s) ↔ (c → Within P mem r) ∧ (¬ c → Within P mem s) := by
  by_cases h : c <;> simp [h]

theorem Within.mono {r : Reads β α} (hPQ : ∀ p, P p → Q p) (h : Within P mem r) :
    Within Q mem r := by
  induction r with
  | done a => trivial
  | read p k ih => exact ⟨hPQ p h.1, ih (mem p) h.2⟩

/-! ### Two memories -/

/-- **Only the places that are looked at matter.** -/
theorem within_congr {r : Reads β α} (h : Within (fun p => mem p = mem' p) mem r) :
    Within P mem r ↔ Within P mem' r := by
  induction r with
  | done a => exact Iff.rfl
  | read p k ih =>
      have hrest := ih (mem p) h.2
      rw [Within, Within, ← h.1]
      exact and_congr_right fun _ => hrest

/-- A program that stays in the front of a memory stays in any memory with that front. -/
theorem within_prefix_congr {k n : ℕ} {r : Reads β α} (h : ∀ i < n, mem i = mem' i) (hk : k ≤ n) :
    Within (· < k) mem r ↔ Within (· < k) mem' r := by
  constructor
  · intro hin
    have hsame : Within (fun p => mem p = mem' p) mem r :=
      hin.mono fun p hp => h p (Nat.lt_of_lt_of_le hp hk)
    exact (within_congr hsame).1 hin
  · intro hin
    have hsame : Within (fun p => mem' p = mem p) mem' r :=
      hin.mono fun p hp => (h p (Nat.lt_of_lt_of_le hp hk)).symm
    exact (within_congr hsame).1 hin

/-! ### On a condition, and again and again -/

section

variable {c : Prop} [Decidable c]

/-- A program that is run on a condition. -/
def when (c : Prop) [Decidable c] (r : Reads β Unit) : Reads β Unit := if c then r else pure ()

/-- A value that is read on a condition. -/
def optional (c : Prop) [Decidable c] (r : Reads β α) : Reads β (Option α) :=
  if c then some <$> r else pure none

/-- A program that is run `n` times. -/
def times : ℕ → Reads β Unit → Reads β Unit
  | 0, _ => pure ()
  | n + 1, r => do
      r
      times n r

@[simp] theorem within_when (r : Reads β Unit) : Within P mem (when c r) ↔ (c → Within P mem r) :=
  (within_ite c r _).trans (and_iff_left fun _ => trivial)

@[simp] theorem run_optional (r : Reads β α) :
    run mem (optional c r) = if c then some (run mem r) else none := by
  rw [optional, run_ite, run_map, run_pure]

@[simp] theorem within_optional (r : Reads β α) :
    Within P mem (optional c r) ↔ (c → Within P mem r) := by
  rw [optional, within_ite, within_map]
  exact and_iff_left fun _ => trivial

@[simp] theorem within_times (n : ℕ) (r : Reads β Unit) :
    Within P mem (times n r) ↔ (n ≠ 0 → Within P mem r) := by
  induction n with
  | zero => exact iff_of_true trivial fun h => absurd rfl h
  | succ n ih =>
      rw [times, within_bind, ih]
      exact ⟨fun h _ => h.1, fun h => ⟨h (Nat.succ_ne_zero n), fun _ => h (Nat.succ_ne_zero n)⟩⟩

end

/-! ### Readers -/

/-- One cell. -/
def byte (p : ℕ) : Reads β β := read p done

/-- The `n` cells from `p` on. -/
def bytes (p : ℕ) : ℕ → Reads β (List β)
  | 0 => pure []
  | n + 1 => do
      let b ← byte p
      let bs ← bytes (p + 1) n
      pure (b :: bs)

/-- Cells that are looked at and not kept. -/
def look {β : Type} (p n : ℕ) : Reads β Unit := (fun _ => ()) <$> bytes p n

/-- The cells at these places. -/
def gather : List ℕ → Reads β (List β)
  | [] => pure []
  | p :: ps => do
      let b ← byte p
      let bs ← gather ps
      pure (b :: bs)

/-- A number of 16 bits, little end first. -/
def le16 (p : ℕ) : Reads UInt8 ℕ := do
  let low ← byte p
  let high ← byte (p + 1)
  pure (low.toNat + 256 * high.toNat)

@[simp] theorem run_byte (p : ℕ) : run mem (byte p) = mem p := rfl

@[simp] theorem within_byte (p : ℕ) : Within P mem (byte p) ↔ P p := and_iff_left trivial

@[simp] theorem run_bytes (p n : ℕ) : run mem (bytes p n) = Memory.load mem p n := by
  induction n generalizing p with
  | zero => rfl
  | succ n ih => rw [bytes, run_bind, run_byte, run_bind, ih, run_pure, Memory.load_succ]

@[simp] theorem within_bytes (p n : ℕ) :
    Within P mem (bytes p n) ↔ ∀ i, p ≤ i → i < p + n → P i := by
  induction n generalizing p with
  | zero => exact ⟨fun _ i hi hlt => absurd hlt (by omega), fun _ => trivial⟩
  | succ n ih =>
      rw [bytes, within_bind, within_byte, within_bind, ih]
      constructor
      · rintro ⟨hp, hrest, -⟩ i hi hlt
        rcases Nat.eq_or_lt_of_le hi with rfl | hi
        · exact hp
        · exact hrest i hi (by omega)
      · intro h
        exact ⟨h p (by omega) (by omega), fun i hi hlt => h i (by omega) (by omega), trivial⟩

/-- Cells in the front of a memory. -/
theorem within_lt_bytes (p k : ℕ) {n : ℕ} :
    Within (· < n) mem (bytes p k) ↔ (k ≠ 0 → p + k ≤ n) := by
  rw [within_bytes]
  constructor
  · intro h hk
    have hlast := h (p + k - 1) (by omega) (by omega)
    omega
  · intro h i _ hlt
    have hend := h (by omega)
    omega

/-- Cells of which there is one at least. -/
theorem within_lt_bytes_of_ne (p : ℕ) {k n : ℕ} (hk : k ≠ 0) :
    Within (· < n) mem (bytes p k) ↔ p + k ≤ n := by
  rw [within_lt_bytes]
  exact forall_prop_of_true hk

theorem within_lt_look_of_ne {β : Type} {mem : ℕ → β} (p : ℕ) {k n : ℕ} (hk : k ≠ 0) :
    Within (· < n) mem (look p k) ↔ p + k ≤ n :=
  (within_map _ _).trans (within_lt_bytes_of_ne p hk)

/-- The front of a memory up to `k`. -/
theorem within_lt_bytes_zero (k : ℕ) {n : ℕ} : Within (· < n) mem (bytes 0 k) ↔ k ≤ n := by
  rw [within_lt_bytes, Nat.zero_add]
  refine ⟨fun h => ?_, fun h _ => h⟩
  by_cases hk : k = 0
  · omega
  · exact h hk

theorem within_lt_look_zero {β : Type} {mem : ℕ → β} (k : ℕ) {n : ℕ} :
    Within (· < n) mem (look 0 k) ↔ k ≤ n :=
  (within_map _ _).trans (within_lt_bytes_zero k)

@[simp] theorem within_gather (ps : List ℕ) : Within P mem (gather ps) ↔ ∀ p ∈ ps, P p := by
  induction ps with
  | nil => exact iff_of_true trivial fun p hp => absurd hp (by simp)
  | cons p ps ih =>
      rw [gather, within_bind, within_byte, within_bind, ih, List.forall_mem_cons]
      exact and_congr_right fun _ => and_iff_left trivial

/-- The number of 16 bits that a memory holds at `p`. -/
def number16 (mem : ℕ → UInt8) (p : ℕ) : ℕ := (mem p).toNat + 256 * (mem (p + 1)).toNat

section

variable {mem mem' : ℕ → UInt8}

@[simp] theorem run_le16 (p : ℕ) : run mem (le16 p) = number16 mem p := rfl

@[simp] theorem within_le16 (p : ℕ) : Within P mem (le16 p) ↔ P p ∧ P (p + 1) := by
  simp [le16]

theorem number16_lt (mem : ℕ → UInt8) (p : ℕ) : number16 mem p < 65536 := by
  have hlow := (mem p).toNat_lt
  have hhigh := (mem (p + 1)).toNat_lt
  rw [number16]
  omega

theorem number16_congr {p : ℕ} (h : ∀ i, p ≤ i → i < p + 2 → mem i = mem' i) :
    number16 mem p = number16 mem' p := by
  rw [number16, number16, h p (by omega) (by omega), h (p + 1) (by omega) (by omega)]

/-- A number that stands in the memory. -/
theorem number16_load {p n : ℕ} (h : Memory.load mem p 2 = Bytes.le16 n) :
    number16 mem p = n % 65536 := by
  simp only [Memory.load, List.range_succ, List.range_zero, List.nil_append, List.cons_append,
    List.map_cons, List.map_nil, Nat.add_zero, Bytes.le16, List.cons.injEq, and_true] at h
  rw [number16, h.1, h.2]
  simp only [UInt8.toNat_ofNat']
  omega

end

end Reads

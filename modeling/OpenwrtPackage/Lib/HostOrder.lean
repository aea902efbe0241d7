/-
**The byte order of the host.**

A field of a message has one byte order wherever the message is read, and a number in a register is
stored in the order of the host.  A program whose fields are little-endian converts at each load and
each store; on a little-endian host a conversion does nothing, so there a missing one is not seen.

* `Host.Endian` — the order of a host;
* `Host.number16`, `Host.number32`, `Host.bytes16`, `Host.bytes32` — a load and a store;
* `Host.htole16`, `Host.htole32`, `Host.le16toh`, `Host.le32toh` — the conversions;
* `Host.bytes32_htole32`, `Host.le32toh_number32` — **with one conversion every host stores, and
  reads, the same**;
* `Host.number32_big` — without one, the hosts read numbers that are swapped;
* `Host.Agree` — a step that is the same on both hosts, and `Host.run_eq_of_agree`.
-/
import OpenwrtPackage.Lib.ByteOrder
import OpenwrtPackage.Lib.Memory

set_option relaxedAutoImplicit false
set_option autoImplicit false

namespace Host

open Bytes Memory

/-- The byte order of a host. -/
inductive Endian where
  | little
  | big
  deriving DecidableEq

/-! ### Big-endian numbers -/

/-- The big-endian 16-bit number at offset `i`. -/
def be16At (m : List UInt8) (i : ℕ) : ℕ := 256 * (byteAt m i).toNat + (byteAt m (i + 1)).toNat

/-- The big-endian 32-bit number at offset `i`. -/
def be32At (m : List UInt8) (i : ℕ) : UInt32 := UInt32.ofNat (65536 * be16At m i + be16At m (i + 2))

/-- The two bytes of a number in reverse order. -/
def bswap16 (n : ℕ) : ℕ := n % 256 * 256 + n / 256 % 256

theorem le16At_lt (m : List UInt8) (i : ℕ) : le16At m i < 65536 := by
  have hlow := (byteAt m i).toNat_lt
  have hhigh := (byteAt m (i + 1)).toNat_lt
  rw [le16At]
  omega

theorem be16At_eq (m : List UInt8) (i : ℕ) : be16At m i = bswap16 (le16At m i) := by
  have hlow := (byteAt m i).toNat_lt
  have hhigh := (byteAt m (i + 1)).toNat_lt
  rw [be16At, bswap16, le16At]
  omega

theorem bswap16_mod (n : ℕ) : bswap16 n % 256 = n / 256 % 256 := by
  rw [bswap16]
  omega

theorem bswap16_div (n : ℕ) : bswap16 n / 256 = n % 256 := by
  rw [bswap16]
  omega

theorem bswap16_bswap16 (n : ℕ) : bswap16 (bswap16 n) = n % 65536 := by
  have hlow := bswap16_mod n
  have hhigh := bswap16_div n
  rw [bswap16, hlow, hhigh]
  omega

theorem be32At_eq (m : List UInt8) (i : ℕ) : be32At m i = bswap32 (le32At m i) := by
  have h0 := (byteAt m i).toNat_lt
  have h1 := (byteAt m (i + 1)).toNat_lt
  have h2 := (byteAt m (i + 2)).toNat_lt
  have h3 := (byteAt m (i + 2 + 1)).toNat_lt
  have hle : (le32At m i).toNat = (byteAt m i).toNat + (byteAt m (i + 1)).toNat * 2 ^ 8 +
      (byteAt m (i + 2)).toNat * 2 ^ 16 + (byteAt m (i + 2 + 1)).toNat * 2 ^ 24 := by
    rw [le32At, UInt32.toNat_ofNat', le16At, le16At]
    omega
  refine UInt32.toNat_inj.1 ?_
  rw [toNat_bswap32 h0 h1 h2 h3 hle, be32At, UInt32.toNat_ofNat', be16At, be16At]
  omega

/-! ### Loads and stores -/

/-- What the host makes of two bytes. -/
def number16 (e : Endian) (m : List UInt8) : ℕ :=
  match e with
  | .little => le16At m 0
  | .big => be16At m 0

/-- What the host makes of four bytes. -/
def number32 (e : Endian) (m : List UInt8) : UInt32 :=
  match e with
  | .little => le32At m 0
  | .big => be32At m 0

/-- The two bytes that the host stores for a number. -/
def bytes16 (e : Endian) (n : ℕ) : List UInt8 :=
  match e with
  | .little => le16 n
  | .big => (le16 n).reverse

/-- The four bytes that the host stores for a number. -/
def bytes32 (e : Endian) (n : UInt32) : List UInt8 :=
  match e with
  | .little => le32 n
  | .big => be32 n

@[simp] theorem bytes32_length (e : Endian) (n : UInt32) : (bytes32 e n).length = 4 := by
  cases e with
  | little => rfl
  | big => rfl

/-- `htole16` -/
def htole16 (e : Endian) (n : ℕ) : ℕ :=
  match e with
  | .little => n % 65536
  | .big => bswap16 n

/-- `htole32` -/
def htole32 (e : Endian) (n : UInt32) : UInt32 :=
  match e with
  | .little => n
  | .big => bswap32 n

/-- `le16toh` -/
def le16toh (e : Endian) (n : ℕ) : ℕ := htole16 e n

/-- `le32toh` -/
def le32toh (e : Endian) (n : UInt32) : UInt32 := htole32 e n

/-- A number of 16 bits in the memory of the host. -/
def load16 (e : Endian) (mem : ℕ → UInt8) (p : ℕ) : ℕ := number16 e (load mem p 2)

/-- A number of 32 bits in the memory of the host. -/
def load32 (e : Endian) (mem : ℕ → UInt8) (p : ℕ) : UInt32 := number32 e (load mem p 4)

/-- The field of a message that lies at `p`. -/
def field32 (mem : ℕ → UInt8) (p : ℕ) : UInt32 := le32At (load mem p 4) 0

theorem byteAt_load (mem : ℕ → UInt8) (p : ℕ) {i n : ℕ} (h : i < n) :
    byteAt (load mem p n) i = mem (p + i) := by
  simp [byteAt, load, h]

theorem le16At_load (mem : ℕ → UInt8) (p : ℕ) {i n : ℕ} (h : i + 1 < n) :
    le16At (load mem p n) i = le16At (load mem (p + i) 2) 0 := by
  rw [le16At, le16At, byteAt_load mem p (by omega), byteAt_load mem p h,
    byteAt_load mem (p + i) (by omega), byteAt_load mem (p + i) (by omega)]
  rfl

/-- A field in the middle of what has been read. -/
theorem le32At_load (mem : ℕ → UInt8) (p : ℕ) {i n : ℕ} (h : i + 3 < n) :
    le32At (load mem p n) i = field32 mem (p + i) := by
  rw [field32, le32At, le32At, le16At_load mem p (by omega), le16At_load mem p (by omega),
    le16At_load mem (p + i) (by omega), le16At_load mem (p + i) (by omega)]
  rfl

theorem le32_le32At (m : List UInt8) (hlen : m.length = 4) : le32 (le32At m 0) = m := by
  obtain ⟨a, b, c, d, rfl⟩ := List.length_eq_four.1 hlen
  have hn : (le32At [a, b, c, d] 0).toNat =
      a.toNat + b.toNat * 2 ^ 8 + c.toNat * 2 ^ 16 + d.toNat * 2 ^ 24 := by
    have h := toNat_le32At_bytes a.toNat_lt b.toNat_lt c.toNat_lt d.toNat_lt []
    simpa using h
  rw [le32_eq a.toNat_lt b.toNat_lt c.toNat_lt hn]
  simp

/-- A field that is written over itself. -/
theorem store_field32 (mem : ℕ → UInt8) (p : ℕ) : store mem p (le32 (field32 mem p)) = mem := by
  rw [field32, le32_le32At _ (length_load mem p 4)]
  exact store_load mem p 4

theorem field32_store (mem : ℕ → UInt8) (p : ℕ) (n : UInt32) :
    field32 (store mem p (le32 n)) p = n := by
  have hload : load (store mem p (le32 n)) p 4 = le32 n ++ [] :=
    (load_store_self mem p (le32 n)).trans (List.append_nil _).symm
  rw [field32, hload, le32At_le32]

/-- A write behind a field leaves it. -/
theorem field32_store_of_le (mem : ℕ → UInt8) {p q : ℕ} (bs : List UInt8) (h : q + 4 ≤ p) :
    field32 (store mem p bs) q = field32 mem q := by
  rw [field32, field32, load_store_of_le mem bs h]

/-- A row of fields that has been written is read back. -/
theorem field32_store_row (mem : ℕ → UInt8) (p : ℕ) (ns : List UInt32) (rest : List UInt8) {i : ℕ}
    (h : i < ns.length) :
    field32 (store mem p (ns.flatMap le32 ++ rest)) (p + 4 * i) = ns[i] := by
  induction ns generalizing mem p i with
  | nil => exact absurd h (Nat.not_lt_zero i)
  | cons n ns ih =>
      rw [List.flatMap_cons, List.append_assoc, store_append, le32_length]
      cases i with
      | zero =>
          have hplace : p + 4 * 0 = p := rfl
          rw [hplace, field32_store_of_le _ _ (Nat.le_refl _), field32_store]
          rfl
      | succ i =>
          have hplace : p + 4 * (i + 1) = p + 4 + 4 * i := by omega
          rw [hplace, ih _ _ (Nat.lt_of_succ_lt_succ h)]
          rfl

/-! ### One conversion -/

theorem reverse_le16 (n : ℕ) : (le16 n).reverse = le16 (bswap16 n) := by
  have hlow : UInt8.ofNat (bswap16 n) = UInt8.ofNat (n / 256) :=
    UInt8.toNat_inj.1 (by simp only [UInt8.toNat_ofNat']; exact bswap16_mod n)
  have hhigh : UInt8.ofNat (bswap16 n / 256) = UInt8.ofNat n :=
    UInt8.toNat_inj.1 (by simp [bswap16_div])
  rw [le16, le16, hlow, hhigh]
  rfl

/-- **With one conversion every host stores the same two bytes.** -/
@[simp] theorem bytes16_htole16 (e : Endian) (n : ℕ) : bytes16 e (htole16 e n) = le16 n := by
  cases e with
  | little => exact le16_mod n
  | big =>
      simp only [bytes16, htole16]
      rw [reverse_le16, bswap16_bswap16, le16_mod]

/-- **With one conversion every host stores the same four bytes.** -/
@[simp] theorem bytes32_htole32 (e : Endian) (n : UInt32) :
    bytes32 e (htole32 e n) = le32 n := by
  cases e with
  | little => rfl
  | big =>
      simp only [bytes32, htole32]
      rw [← le32_bswap32, bswap32_bswap32]

@[simp] theorem le16toh_number16 (e : Endian) (m : List UInt8) :
    le16toh e (number16 e m) = le16At m 0 := by
  have hlt := le16At_lt m 0
  cases e with
  | little => exact Nat.mod_eq_of_lt hlt
  | big =>
      simp only [le16toh, htole16, number16]
      rw [be16At_eq, bswap16_bswap16, Nat.mod_eq_of_lt hlt]

@[simp] theorem le16toh_load16 (e : Endian) (mem : ℕ → UInt8) (p : ℕ) :
    le16toh e (load16 e mem p) = le16At (load mem p 2) 0 := le16toh_number16 e (load mem p 2)

/-- **With one conversion every host reads the same number.** -/
@[simp] theorem le32toh_number32 (e : Endian) (m : List UInt8) :
    le32toh e (number32 e m) = le32At m 0 := by
  cases e with
  | little => rfl
  | big =>
      simp only [le32toh, htole32, number32]
      rw [be32At_eq, bswap32_bswap32]

@[simp] theorem le32toh_load32 (e : Endian) (mem : ℕ → UInt8) (p : ℕ) :
    le32toh e (load32 e mem p) = field32 mem p := le32toh_number32 e (load mem p 4)

/-! ### No conversion -/

theorem load32_little (mem : ℕ → UInt8) (p : ℕ) : load32 .little mem p = field32 mem p := rfl

/-- A number that is read without a conversion. -/
theorem load32_big (mem : ℕ → UInt8) (p : ℕ) :
    load32 .big mem p = bswap32 (field32 mem p) := be32At_eq (load mem p 4) 0

/-- Zero is the same on every host. -/
theorem load32_eq_zero (e : Endian) (mem : ℕ → UInt8) (p : ℕ) :
    load32 e mem p = 0 ↔ field32 mem p = 0 := by
  cases e with
  | little => exact Iff.rfl
  | big =>
      rw [load32_big]
      exact @bswap32_inj _ 0

/-- A field that is copied keeps its bytes. -/
theorem bytes32_load32 (e : Endian) (mem : ℕ → UInt8) (p : ℕ) :
    bytes32 e (load32 e mem p) = le32 (field32 mem p) := by
  cases e with
  | little => rfl
  | big =>
      simp only [bytes32]
      rw [load32_big, ← le32_bswap32, bswap32_bswap32]

/-! ### A step on two hosts -/

section

variable {σ ι ο : Type*} (step : Endian → σ → ι → σ × List ο)

/-- The step has one effect on both hosts. -/
def Agree (s : σ) (i : ι) : Prop := step .little s i = step .big s i

/-- What a host sends in a run. -/
def sent (e : Endian) (s : σ) : List ι → List ο
  | [] => []
  | i :: is => (step e s i).2 ++ sent e (step e s i).1 is

/-- Each step of a run of the little-endian host has one effect on both hosts. -/
def Agrees (s : σ) : List ι → Prop
  | [] => True
  | i :: is => Agree step s i ∧ Agrees (step .little s i).1 is

theorem sent_eq_of_agrees (s : σ) (is : List ι) (h : Agrees step s is) :
    sent step .little s is = sent step .big s is := by
  induction is generalizing s with
  | nil => rfl
  | cons i is ih =>
      obtain ⟨hstep, hrest⟩ := h
      have hrun := ih _ hrest
      rw [sent, sent, hrun]
      rw [Agree] at hstep
      rw [hstep]

end

end Host

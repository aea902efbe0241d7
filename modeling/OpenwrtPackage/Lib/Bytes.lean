/-
**Byte buffers and byte streams.**

A packed structure that a C program overlays on a buffer is a family of offsets.  This module reads
and writes little-endian fields of a list of bytes, and says which of them survive when
the buffer is cut.  A stream is what `read` returns piece by piece: the same bytes can come in
different pieces.

* `Bytes.byteAt`, `Bytes.le16At`, `Bytes.le32At` — the byte, and the little-endian number, at an
  offset;
* `Bytes.le16`, `Bytes.le32` — a number written out;
* `Bytes.readInto` — a buffer after a `read` of some bytes into its front: what lies behind them
  is left over from before;
* `Bytes.byteAt_take`, `Bytes.le16At_take` — a cut keeps the fields that lie in front of it;
* `Bytes.byteAt_drop`, `Bytes.le16At_drop` — the fields of what stands behind a cut;
* `Bytes.le16At_le16` — a number that has been written out is read back;
* `Bytes.le16At_readInto` — fields inside the bytes read do not depend on the old contents;
* `Bytes.eq_of_sublist_of_flatten_eq` — of the pieces of a stream none can be left out without
  losing bytes.
-/
import Mathlib.Data.List.Basic
import Mathlib.Data.List.Flatten

set_option relaxedAutoImplicit false
set_option autoImplicit false

namespace Bytes

/-- The byte at offset `i`; bytes past the end of the list read as zero. -/
def byteAt (m : List UInt8) (i : ℕ) : UInt8 := m.getD i 0

/-- The little-endian 16-bit number at offset `i`. -/
def le16At (m : List UInt8) (i : ℕ) : ℕ := (byteAt m i).toNat + 256 * (byteAt m (i + 1)).toNat

/-- The little-endian 32-bit number at offset `i`. -/
def le32At (m : List UInt8) (i : ℕ) : UInt32 := UInt32.ofNat (le16At m i + 65536 * le16At m (i + 2))

/-- A 16-bit number in two bytes; what does not fit is lost. -/
def le16 (n : ℕ) : List UInt8 := [UInt8.ofNat n, UInt8.ofNat (n / 256)]

/-- A 32-bit number in four bytes. -/
def le32 (n : UInt32) : List UInt8 := le16 n.toNat ++ le16 (n.toNat / 65536)

/-- The contents of a buffer after the bytes `chunk` have been read into its front. -/
def readInto (buf chunk : List UInt8) : List UInt8 := chunk ++ buf.drop chunk.length

theorem byteAt_take {m : List UInt8} {i n : ℕ} (h : i < n) : byteAt (m.take n) i = byteAt m i := by
  rw [byteAt, byteAt, List.getD_eq_getElem?_getD, List.getElem?_take_of_lt h,
    ← List.getD_eq_getElem?_getD]

theorem le16At_take {m : List UInt8} {i n : ℕ} (h : i + 1 < n) :
    le16At (m.take n) i = le16At m i := by
  rw [le16At, le16At, byteAt_take h, byteAt_take (by omega)]

theorem byteAt_append_left {m rest : List UInt8} {i : ℕ} (h : i < m.length) :
    byteAt (m ++ rest) i = byteAt m i := by
  rw [byteAt, byteAt, List.getD_eq_getElem?_getD, List.getElem?_append_left h,
    ← List.getD_eq_getElem?_getD]

theorem le16At_readInto {buf chunk : List UInt8} {i : ℕ} (h : i + 1 < chunk.length) :
    le16At (readInto buf chunk) i = le16At chunk i := by
  rw [le16At, le16At, readInto, byteAt_append_left h, byteAt_append_left (by omega)]

theorem byteAt_drop (m : List UInt8) (p i : ℕ) : byteAt (m.drop p) i = byteAt m (p + i) := by
  rw [byteAt, byteAt, List.getD_eq_getElem?_getD, List.getElem?_drop,
    ← List.getD_eq_getElem?_getD]

theorem le16At_drop (m : List UInt8) (p i : ℕ) : le16At (m.drop p) i = le16At m (p + i) := by
  rw [le16At, le16At, byteAt_drop, byteAt_drop, Nat.add_assoc]

/-- A number of 16 bits is read back. -/
theorem le16At_le16 (n : ℕ) (rest : List UInt8) : le16At (le16 n ++ rest) 0 = n % 65536 := by
  simp only [le16At, byteAt, le16, List.cons_append, List.nil_append, List.getD_cons_zero,
    List.getD_cons_succ, UInt8.toNat_ofNat']
  omega

/-- What does not fit into 16 bits is lost. -/
theorem le16_mod (n : ℕ) : le16 (n % 65536) = le16 n := by
  have hlow : UInt8.ofNat (n % 65536) = UInt8.ofNat n :=
    UInt8.toNat_inj.1 (by simp only [UInt8.toNat_ofNat']; omega)
  have hhigh : UInt8.ofNat (n % 65536 / 256) = UInt8.ofNat (n / 256) :=
    UInt8.toNat_inj.1 (by simp only [UInt8.toNat_ofNat']; omega)
  rw [le16, le16, hlow, hhigh]

@[simp] theorem le16_length (n : ℕ) : (le16 n).length = 2 := rfl

@[simp] theorem take_readInto (buf chunk : List UInt8) :
    (readInto buf chunk).take chunk.length = chunk := by
  simp [readInto]

/-- Pieces that are picked from the pieces of a stream, and make up the whole stream, are all of
them. -/
theorem eq_of_sublist_of_flatten_eq {α : Type*} {picked pieces : List (List α)}
    (hsub : picked.Sublist pieces) (hne : ∀ x ∈ pieces, x ≠ [])
    (h : picked.flatten = pieces.flatten) : picked = pieces := by
  induction hsub with
  | slnil => rfl
  | @cons picked pieces x hsub ih =>
      -- the piece `x` is left out, so bytes are missing
      exfalso
      have hx : 0 < x.length := List.length_pos_iff.2 (hne x (List.mem_cons_self ..))
      have hle : picked.flatten.length ≤ pieces.flatten.length := hsub.flatten.length_le
      have hlen := congrArg List.length h
      rw [List.flatten_cons, List.length_append] at hlen
      omega
  | @cons_cons picked pieces x hsub ih =>
      rw [List.flatten_cons, List.flatten_cons] at h
      rw [ih (fun y hy => hne y (List.mem_cons_of_mem _ hy)) (List.append_cancel_left h)]

end Bytes

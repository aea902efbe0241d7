/-
**Attributes of netlink messages.**

A netlink message is a list of attributes, each a length, a type and a payload, in the byte order of
the host; the length leaves out the zeros behind the payload that take the next attribute to an
address that four divides.  The payload of an attribute can be attributes again.  A program puts a
message together in memory, one attribute behind the other, and writes the length of an attribute
that has others inside when they are there.

* `Netlink.Attr`, `Netlink.encodeAll`, `Netlink.parse` — attributes, how they are written and how
  they are read;
* `Netlink.parse_encodeAll` — **what has been written is read back**;
* `Netlink.Message`, `Netlink.addAttr`, `Netlink.setLength` — a message in memory;
* `Netlink.Built` — what has been written of it, with `Netlink.built_addAttr` and
  `Netlink.built_setLength` — one more attribute, and a length.
-/
import OpenwrtPackage.Lib.HostOrder

set_option relaxedAutoImplicit false
set_option autoImplicit false

namespace Netlink

open Bytes Host Memory

/-! ### Attributes -/

/-- `NLMSG_ALIGN`, and `RTA_ALIGN`. -/
def align (n : ℕ) : ℕ := (n + 3) / 4 * 4

/-- `RTA_LENGTH` -/
def rtaLength (n : ℕ) : ℕ := 4 + n

structure Attr where
  type : ℕ
  payload : List UInt8
  deriving DecidableEq

/-- The zeros behind a payload. -/
def padding (n : ℕ) : List UInt8 := List.replicate (align n - n) 0

/-- The header of an attribute. -/
def header (e : Endian) (len type : ℕ) : List UInt8 := bytes16 e len ++ bytes16 e type

def encode (e : Endian) (a : Attr) : List UInt8 :=
  header e (rtaLength a.payload.length) a.type ++ a.payload ++ padding a.payload.length

def encodeAll (e : Endian) (as : List Attr) : List UInt8 := as.flatMap (encode e)

/-- Its type and its length are numbers of 16 bits. -/
def Attr.Fits (a : Attr) : Prop := a.type < 65536 ∧ rtaLength a.payload.length < 65536

/-- The attributes at the front: `RTA_OK`, `RTA_DATA` and `RTA_NEXT`. -/
def parseLoop (e : Endian) : ℕ → List UInt8 → List Attr
  | 0, _ => []
  | fuel + 1, m =>
      let len := number16 e m
      if m.length < 4 ∨ len < 4 ∨ m.length < len then []
      else ⟨number16 e (m.drop 2), (m.take len).drop 4⟩ :: parseLoop e fuel (m.drop (align len))

def parse (e : Endian) (m : List UInt8) : List Attr := parseLoop e m.length m

theorem Attr.fits_mk {type : ℕ} {payload : List UInt8} (htype : type < 65536)
    (hlen : rtaLength payload.length < 65536) : Attr.Fits ⟨type, payload⟩ := ⟨htype, hlen⟩

theorem le_align (n : ℕ) : n ≤ align n := by
  rw [align]
  omega

theorem align_mod (n : ℕ) : align n % 4 = 0 := Nat.mul_mod_left _ _

theorem align_of_mod {n : ℕ} (h : n % 4 = 0) : align n = n := by
  rw [align]
  omega

theorem align_rtaLength (n : ℕ) : align (rtaLength n) = 4 + align n := by
  rw [align, align, rtaLength]
  omega

theorem length_padding (n : ℕ) : (padding n).length = align n - n := List.length_replicate

@[simp] theorem length_bytes16 (e : Endian) (n : ℕ) : (bytes16 e n).length = 2 := by
  cases e with
  | little => rfl
  | big => rfl

@[simp] theorem length_header (e : Endian) (len type : ℕ) : (header e len type).length = 4 := by
  rw [header, List.length_append, length_bytes16, length_bytes16]

theorem length_encode (e : Endian) (a : Attr) :
    (encode e a).length = align (rtaLength a.payload.length) := by
  have hle := le_align a.payload.length
  rw [encode, List.length_append, List.length_append, length_header, length_padding,
    align_rtaLength]
  omega

theorem length_encodeAll_cons (e : Endian) (a : Attr) (as : List Attr) :
    (encodeAll e (a :: as)).length = 4 + align a.payload.length + (encodeAll e as).length := by
  rw [encodeAll, List.flatMap_cons, List.length_append, length_encode, align_rtaLength]
  rfl

theorem number16_bytes16 (e : Endian) {n : ℕ} (h : n < 65536) (rest : List UInt8) :
    number16 e (bytes16 e n ++ rest) = n := by
  have hle := le16At_le16 n rest
  rw [Nat.mod_eq_of_lt h] at hle
  cases e with
  | little => exact hle
  | big =>
      have hbe := be16At_eq ((le16 n).reverse ++ rest) 0
      have hswap := le16At_le16 (bswap16 n) rest
      rw [← reverse_le16] at hswap
      rw [number16, bytes16, hbe, hswap]
      have hlt : bswap16 n < 65536 := by
        rw [bswap16]
        omega
      rw [Nat.mod_eq_of_lt hlt, bswap16_bswap16, Nat.mod_eq_of_lt h]

/-- One attribute in front of others. -/
theorem parseLoop_encode {e : Endian} {a : Attr} (h : a.Fits) (fuel : ℕ) (rest : List UInt8) :
    parseLoop e (fuel + 1) (encode e a ++ rest) = a :: parseLoop e fuel rest := by
  have hlen : number16 e (encode e a ++ rest) = rtaLength a.payload.length := by
    rw [encode, header, List.append_assoc, List.append_assoc, List.append_assoc]
    exact number16_bytes16 e h.2 _
  have htype : number16 e ((encode e a ++ rest).drop 2) = a.type := by
    have hdrop : (encode e a ++ rest).drop 2 =
        bytes16 e a.type ++ (a.payload ++ (padding a.payload.length ++ rest)) := by
      rw [encode, header, List.append_assoc, List.append_assoc, List.append_assoc]
      exact List.drop_left' (length_bytes16 e _)
    rw [hdrop]
    exact number16_bytes16 e h.1 _
  have hpayload : ((encode e a ++ rest).take (rtaLength a.payload.length)).drop 4 = a.payload := by
    rw [encode, List.append_assoc, List.take_left', List.drop_left' (length_header e _ _)]
    rw [List.length_append, length_header, rtaLength]
  have hnext : (encode e a ++ rest).drop (align (rtaLength a.payload.length)) = rest := by
    rw [← length_encode e a, List.drop_left]
  have hroom : ¬ ((encode e a ++ rest).length < 4 ∨ rtaLength a.payload.length < 4 ∨
      (encode e a ++ rest).length < rtaLength a.payload.length) := by
    have hle := le_align (rtaLength a.payload.length)
    rw [List.length_append, length_encode]
    rw [rtaLength] at hle ⊢
    omega
  rw [parseLoop]
  simp only [hlen, if_neg hroom, htype, hpayload, hnext]

theorem parseLoop_encodeAll {e : Endian} {as : List Attr} (h : ∀ a ∈ as, a.Fits) {fuel : ℕ}
    (hfuel : as.length ≤ fuel) : parseLoop e fuel (encodeAll e as) = as := by
  induction as generalizing fuel with
  | nil =>
      cases fuel with
      | zero => rfl
      | succ fuel =>
          have hshort : (encodeAll e []).length < 4 := Nat.zero_lt_succ 3
          rw [parseLoop]
          simp only [hshort, true_or, if_true]
  | cons a as ih =>
      obtain ⟨ha, has⟩ := List.forall_mem_cons.1 h
      obtain ⟨fuel, rfl⟩ := Nat.exists_eq_succ_of_ne_zero (Nat.ne_zero_of_lt hfuel)
      rw [encodeAll, List.flatMap_cons, parseLoop_encode ha, ← encodeAll,
        ih has (Nat.le_of_succ_le_succ hfuel)]

theorem length_le_encodeAll (e : Endian) (as : List Attr) :
    as.length ≤ (encodeAll e as).length := by
  induction as with
  | nil => exact Nat.le_refl _
  | cons a as ih =>
      have hle := le_align (rtaLength a.payload.length)
      rw [encodeAll, List.flatMap_cons, ← encodeAll, List.length_append, length_encode,
        List.length_cons]
      rw [rtaLength] at hle ⊢
      omega

/-- **What has been written is read back.** -/
theorem parse_encodeAll (e : Endian) {as : List Attr} (h : ∀ a ∈ as, a.Fits) :
    parse e (encodeAll e as) = as :=
  parseLoop_encodeAll h (length_le_encodeAll e as)

theorem length_encodeAll_mod (e : Endian) (as : List Attr) : (encodeAll e as).length % 4 = 0 := by
  induction as with
  | nil => rfl
  | cons a as ih =>
      have hmod := align_mod (rtaLength a.payload.length)
      rw [encodeAll, List.flatMap_cons, ← encodeAll, List.length_append, length_encode]
      omega

/-- A payload that four divides has no zeros behind it. -/
theorem encode_of_mod (e : Endian) {type : ℕ} {payload : List UInt8}
    (h : payload.length % 4 = 0) :
    encode e ⟨type, payload⟩ = header e (rtaLength payload.length) type ++ payload := by
  rw [encode, padding, align_of_mod h, Nat.sub_self]
  exact List.append_nil _

/-! ### A message in memory -/

/-- The memory of a message, and where it ends. -/
structure Message where
  mem : ℕ → UInt8
  len : ℕ

/-- An attribute is written behind the others: its header, with a length, and its payload. -/
def addAttr (e : Endian) (len type : ℕ) (payload : List UInt8) (r : Message) : Message :=
  ⟨store r.mem (align r.len) (header e len type ++ payload),
    align r.len + align (rtaLength payload.length)⟩

/-- The length of an attribute that goes up to the end. -/
def setLength (e : Endian) (p : ℕ) (r : Message) : Message :=
  { r with mem := store r.mem p (bytes16 e (align r.len - p)) }

/-- These bytes have been written from `base` on, and there are zeros behind them. -/
structure Built (base : ℕ) (r : Message) (msg : List UInt8) : Prop where
  len : r.len = base + msg.length
  aligned : r.len % 4 = 0
  holds : Holds r.mem base msg
  zeros : ∀ i, r.len ≤ i → r.mem i = 0

section Built

variable {base : ℕ} {r : Message} {msg : List UInt8}

/-- **One more attribute.** -/
theorem built_addAttr (h : Built base r msg) (e : Endian) (len type : ℕ) (payload : List UInt8) :
    Built base (addAttr e len type payload r)
      (msg ++ (header e len type ++ payload ++ padding payload.length)) := by
  have hle := le_align payload.length
  have halign : align r.len = r.len := align_of_mod h.aligned
  have hlen : (header e len type ++ payload).length = 4 + payload.length := by
    rw [List.length_append, length_header]
  have hlen' := h.len
  have hadd : addAttr e len type payload r =
      ⟨store r.mem r.len (header e len type ++ payload), r.len + (4 + align payload.length)⟩ := by
    rw [addAttr, halign, align_rtaLength]
  rw [hadd]
  refine ⟨?_, ?_, ?_, ?_⟩
  · dsimp only
    rw [List.length_append, List.length_append, hlen, length_padding]
    omega
  · have hmod := align_mod payload.length
    have hbase := h.aligned
    dsimp only
    omega
  · dsimp only
    rw [holds_append, holds_append, ← h.len]
    refine ⟨?_, ?_, ?_⟩
    · refine h.holds.congr fun i _ hi => ?_
      exact store_of_lt _ _ (by rw [h.len]; exact hi)
    · rw [Holds, load_store_self]
    · rw [Holds, length_padding, padding]
      refine List.eq_replicate_iff.2 ⟨?_, ?_⟩
      · rw [load, List.length_map, List.length_range]
      · intro b hb
        obtain ⟨i, -, rfl⟩ := List.mem_map.1 hb
        rw [store_of_ge _ _ (Nat.le_add_right _ _)]
        exact h.zeros _ (by omega)
  · intro i hi
    dsimp only at hi ⊢
    rw [store_of_ge _ _ (by rw [hlen]; omega)]
    exact h.zeros i (by omega)

/-- **The length of an attribute that goes up to the end.** -/
theorem built_setLength {front rest : List UInt8} {e : Endian} {old : ℕ}
    (h : Built base r (front ++ (bytes16 e old ++ rest))) :
    Built base (setLength e (base + front.length) r)
      (front ++ (bytes16 e (2 + rest.length) ++ rest)) := by
  have hlen := h.len
  rw [List.length_append, List.length_append, length_bytes16] at hlen
  have hvalue : align r.len - (base + front.length) = 2 + rest.length := by
    rw [align_of_mod h.aligned]
    omega
  obtain ⟨hfront, hmid⟩ := holds_append.1 h.holds
  obtain ⟨hold, hrest⟩ := holds_append.1 hmid
  refine ⟨?_, h.aligned, ?_, ?_⟩
  · rw [setLength, List.length_append, List.length_append, length_bytes16]
    exact hlen
  · rw [setLength, hvalue, holds_append, holds_append]
    refine ⟨hfront.congr fun i _ hi => store_of_lt _ _ hi, ?_, ?_⟩
    · rw [Holds, load_store_self]
    · rw [length_bytes16] at hrest ⊢
      refine hrest.congr fun i hi _ => store_of_ge _ _ ?_
      rw [length_bytes16]
      exact hi
  · intro i hi
    have hi' : r.len ≤ i := hi
    have hframe : (setLength e (base + front.length) r).mem i = r.mem i := by
      refine store_of_ge _ _ ?_
      rw [length_bytes16]
      omega
    rw [hframe]
    exact h.zeros i hi

end Built

end Netlink

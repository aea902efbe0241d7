/-
**Lists of types, lengths and values.**

A message is often a list of fields, each a type of one byte, a length of two bytes and as many
bytes of value.  A reader goes from field to field by the lengths, so that it can skip the types
that it does not know.

* `Tlv.Field`, `Tlv.encode`, `Tlv.encodeAll` — fields, and how they are written;
* `Tlv.parse` — reads a list of fields, to its end;
* `Tlv.lookup` — the value of the first field with a type;
* `Tlv.split` — the whole fields at the front of any bytes, and what is left;
* `Tlv.parse_encodeAll` — **what has been written is read back**;
* `Tlv.lookup_append` — the value of a type in lists that are put together;
* `Tlv.encodeAll_split`, `Tlv.split_rest` — what is left is too short for the next field.
-/
import Mathlib.Algebra.Ring.Nat
import OpenwrtPackage.Lib.Bytes

set_option relaxedAutoImplicit false
set_option autoImplicit false

namespace Tlv

open Bytes

structure Field where
  type : UInt8
  value : List UInt8
  deriving DecidableEq

/-- The size of the type and the length. -/
def headerSize : ℕ := 3

/-- The size of a field. -/
def Field.size (f : Field) : ℕ := headerSize + f.value.length

def encode (f : Field) : List UInt8 := f.type :: le16 f.value.length ++ f.value

def encodeAll (fs : List Field) : List UInt8 := fs.flatMap encode

/-- The length of the value has two bytes. -/
def Field.Fits (f : Field) : Prop := f.value.length < 65536

/-- The value of the first field with this type. -/
def lookup (type : UInt8) (fs : List Field) : Option (List UInt8) :=
  (fs.find? fun f => f.type = type).map Field.value

/-- Reads at most as many fields as there is fuel. -/
def parseLoop : ℕ → List UInt8 → Option (List Field)
  | _, [] => some []
  | 0, _ :: _ => none
  | fuel + 1, b :: m =>
      let n := le16At m 0
      if m.length < 2 + n then none
      else (parseLoop fuel (m.drop (2 + n))).map (⟨b, (m.drop 2).take n⟩ :: ·)

/-- Reads a list of fields; behind the last one nothing may be left. -/
def parse (m : List UInt8) : Option (List Field) := parseLoop m.length m

/-! ### Sizes -/

@[simp] theorem encode_length (f : Field) : (encode f).length = f.size := by
  simp only [encode, List.length_append, List.length_cons, le16_length, Field.size, headerSize]

@[simp] theorem encodeAll_nil : encodeAll [] = [] := rfl

@[simp] theorem encodeAll_cons (f : Field) (fs : List Field) :
    encodeAll (f :: fs) = encode f ++ encodeAll fs := rfl

@[simp] theorem encodeAll_append (fs gs : List Field) :
    encodeAll (fs ++ gs) = encodeAll fs ++ encodeAll gs := by
  simp [encodeAll]

theorem encodeAll_length (fs : List Field) : (encodeAll fs).length = (fs.map Field.size).sum := by
  induction fs with
  | nil => rfl
  | cons f fs ih => simp [ih]

/-- The fields of a list that is not too long fit. -/
theorem fits_of_encodeAll_lt {fs : List Field} (h : (encodeAll fs).length < 65536) :
    ∀ f ∈ fs, f.Fits := by
  induction fs with
  | nil => simp
  | cons f fs ih =>
      rw [encodeAll_cons, List.length_append, encode_length, Field.size] at h
      intro g hg
      rcases List.mem_cons.1 hg with rfl | hg
      · rw [Field.Fits]
        omega
      · exact ih (by omega) g hg

theorem length_le_encodeAll (fs : List Field) : fs.length ≤ (encodeAll fs).length := by
  induction fs with
  | nil => exact Nat.le_refl 0
  | cons f fs ih =>
      rw [encodeAll_cons, List.length_append, encode_length, Field.size, headerSize,
        List.length_cons]
      omega

/-! ### Reading -/

theorem parseLoop_encodeAll {fs : List Field} (h : ∀ f ∈ fs, f.Fits) {fuel : ℕ}
    (hfuel : fs.length ≤ fuel) : parseLoop fuel (encodeAll fs) = some fs := by
  induction fs generalizing fuel with
  | nil => cases fuel <;> rfl
  | cons f fs ih =>
      obtain ⟨fuel, rfl⟩ : ∃ k, fuel = k + 1 := ⟨fuel - 1, by simp at hfuel; omega⟩
      have hfits : f.value.length < 65536 := h f (List.mem_cons_self ..)
      have hn : le16At (le16 f.value.length ++ f.value ++ encodeAll fs) 0 = f.value.length := by
        rw [List.append_assoc, le16At_le16]
        omega
      have hdrop : (le16 f.value.length ++ f.value ++ encodeAll fs).drop (2 + f.value.length) =
          encodeAll fs := List.drop_left' (by simp)
      have hvalue : ((le16 f.value.length ++ f.value ++ encodeAll fs).drop 2).take
          f.value.length = f.value := by
        rw [List.append_assoc, List.drop_left' (le16_length _), List.take_left' rfl]
      rw [encodeAll_cons, encode, List.cons_append, List.cons_append, parseLoop, hn,
        if_neg (by simp), hdrop, hvalue,
        ih (fun g hg => h g (List.mem_cons_of_mem _ hg)) (by simp at hfuel; omega)]
      rfl

/-- **What has been written is read back**, and nothing is left. -/
theorem parse_encodeAll {fs : List Field} (h : ∀ f ∈ fs, f.Fits) :
    parse (encodeAll fs) = some fs :=
  parseLoop_encodeAll h (length_le_encodeAll fs)

/-! ### Looking up -/

@[simp] theorem lookup_nil (type : UInt8) : lookup type [] = none := rfl

@[simp] theorem lookup_cons (type : UInt8) (f : Field) (fs : List Field) :
    lookup type (f :: fs) = if f.type = type then some f.value else lookup type fs := by
  rw [lookup, List.find?_cons]
  by_cases h : f.type = type
  · simp [h]
  · simp [h, lookup]

@[simp] theorem lookup_append (type : UInt8) (fs gs : List Field) :
    lookup type (fs ++ gs) = (lookup type fs).or (lookup type gs) := by
  induction fs with
  | nil => rfl
  | cons f fs ih =>
      rw [List.cons_append, lookup_cons, lookup_cons, ih]
      split <;> rfl

/-! ### Whole fields -/

/-- The field at the front is not there as a whole. -/
def Cut (m : List UInt8) : Prop := m.length < headerSize ∨ m.length < headerSize + le16At m 1

instance (m : List UInt8) : Decidable (Cut m) :=
  inferInstanceAs (Decidable (m.length < headerSize ∨ m.length < headerSize + le16At m 1))

/-- Takes at most as many fields off as there is fuel. -/
def splitLoop : ℕ → List UInt8 → List Field × List UInt8
  | 0, m => ([], m)
  | fuel + 1, m =>
      if Cut m then ([], m)
      else
        let f : Field := ⟨byteAt m 0, (m.drop headerSize).take (le16At m 1)⟩
        let rest := splitLoop fuel (m.drop (headerSize + le16At m 1))
        (f :: rest.1, rest.2)

/-- The whole fields at the front, and what is left. -/
def split (m : List UInt8) : List Field × List UInt8 := splitLoop m.length m

theorem le16At_lt (m : List UInt8) (p : ℕ) : le16At m p < 65536 := by
  have hlow := (byteAt m p).toNat_lt
  have hhigh := (byteAt m (p + 1)).toNat_lt
  rw [le16At]
  omega

/-- The field at the front is written as it stands there. -/
theorem encode_front {m : List UInt8} (h : ¬ Cut m) :
    encode ⟨byteAt m 0, (m.drop headerSize).take (le16At m 1)⟩ =
      m.take (headerSize + le16At m 1) := by
  rw [Cut, not_or] at h
  obtain ⟨b, low, high, m, rfl⟩ : ∃ b low high rest, m = b :: low :: high :: rest := by
    rcases m with _ | ⟨b, _ | ⟨low, _ | ⟨high, m⟩⟩⟩
    · exact absurd h.1 (by decide)
    · exact absurd h.1 (by simp [headerSize])
    · exact absurd h.1 (by simp [headerSize])
    · exact ⟨b, low, high, m, rfl⟩
  have hn : le16At (b :: low :: high :: m) 1 = low.toNat + 256 * high.toNat := rfl
  rw [hn] at h ⊢
  simp only [headerSize, List.length_cons] at h
  have hlow := low.toNat_lt
  have hlen : (m.take (low.toNat + 256 * high.toNat)).length = low.toNat + 256 * high.toNat :=
    List.length_take_of_le (by omega)
  have hbytes : le16 (low.toNat + 256 * high.toNat) = [low, high] := by
    have hdiv : (low.toNat + 256 * high.toNat) / 256 = high.toNat := by omega
    rw [le16, hdiv, UInt8.ofNat_toNat]
    congr 1
    apply UInt8.toNat_inj.1
    rw [UInt8.toNat_ofNat']
    omega
  have htake : (b :: low :: high :: m).take (headerSize + (low.toNat + 256 * high.toNat)) =
      b :: low :: high :: m.take (low.toNat + 256 * high.toNat) := by
    rw [headerSize, Nat.add_comm]
    rfl
  rw [encode, htake]
  simp only [headerSize, List.drop_succ_cons, List.drop_zero, hlen, hbytes]
  rfl

theorem encodeAll_splitLoop (fuel : ℕ) (m : List UInt8) :
    encodeAll (splitLoop fuel m).1 ++ (splitLoop fuel m).2 = m := by
  induction fuel generalizing m with
  | zero => rfl
  | succ fuel ih =>
      rw [splitLoop]
      split
      · rfl
      · rename_i h
        rw [encodeAll_cons, encode_front h, List.append_assoc, ih, List.take_append_drop]

/-- The whole fields and what is left make up the bytes. -/
theorem encodeAll_split (m : List UInt8) : encodeAll (split m).1 ++ (split m).2 = m :=
  encodeAll_splitLoop _ m

theorem splitLoop_rest {fuel : ℕ} {m : List UInt8} (h : m.length ≤ fuel) :
    Cut (splitLoop fuel m).2 := by
  induction fuel generalizing m with
  | zero =>
      refine Or.inl ?_
      change m.length < headerSize
      rw [headerSize]
      omega
  | succ fuel ih =>
      rw [splitLoop]
      split
      · assumption
      · exact ih (by rw [List.length_drop, headerSize]; omega)

/-- **What is left is too short for the next field.** -/
theorem split_rest (m : List UInt8) : Cut (split m).2 := splitLoop_rest (Nat.le_refl _)

theorem fits_splitLoop (fuel : ℕ) (m : List UInt8) : ∀ f ∈ (splitLoop fuel m).1, f.Fits := by
  induction fuel generalizing m with
  | zero => simp [splitLoop]
  | succ fuel ih =>
      rw [splitLoop]
      split
      · simp
      · intro f hf
        rcases List.mem_cons.1 hf with rfl | hf
        · have hlt := le16At_lt m 1
          rw [Field.Fits, List.length_take]
          omega
        · exact ih _ f hf

theorem fits_split (m : List UInt8) : ∀ f ∈ (split m).1, f.Fits := fits_splitLoop _ m

end Tlv

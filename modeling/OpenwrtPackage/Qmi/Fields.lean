/-
**What `GetTLV` finds.**

`GetTLV` walks over the TLVs of a message with a counter of 16 bits.  In a message whose length
field counts its TLVs it finds the first one with the type, as a reader of the list of fields does.

* `Qmi.tlvValue` — the value of the TLV that `GetTLV` finds;
* `Qmi.getTLVLoop_encodeAll` — one walk;
* `Qmi.tlvValue_eq_lookup` — **the value that is found is the one that has been written**.
-/
import OpenwrtPackage.Lib.Tlv
import OpenwrtPackage.Qmi.Qmux

set_option relaxedAutoImplicit false
set_option autoImplicit false

namespace Qmi

open Bytes Tlv

/-- The value of the first TLV of this type, if there is one. -/
def tlvValue (m : List UInt8) (type : UInt8) : Option (List UInt8) :=
  (getTLV m type.toNat).map fun p => bytesAt m (p + qmiTlvHdrSize) (tlvLength m p)

theorem bytesAt_eq {m : List UInt8} {p n : ℕ} (h : p + n ≤ m.length) :
    bytesAt m p n = (m.drop p).take n := by
  refine List.ext_getElem (by simp [bytesAt]; omega) fun i hi hi' => ?_
  have hlt : i < n := by simpa [bytesAt] using hi
  simp only [bytesAt, byteAt, List.getElem_map, List.getElem_range, List.getElem_take,
    List.getElem_drop]
  rw [List.getD_eq_getElem?_getD, List.getElem?_eq_getElem (by omega), Option.getD_some]

section

variable {m rest : List UInt8} {p : ℕ} {f : Field}

/-- The fields of a TLV that stands at `p`. -/
theorem tlvType_eq (h : m.drop p = encode f ++ rest) : tlvType m p = f.type := by
  have hbyte := byteAt_drop m p 0
  rw [Nat.add_zero, h] at hbyte
  exact hbyte.symm

theorem tlvLength_eq (hfits : f.Fits) (h : m.drop p = encode f ++ rest) :
    tlvLength m p = f.value.length := by
  have hnext : m.drop (p + 1) = le16 f.value.length ++ (f.value ++ rest) := by
    rw [← List.drop_drop, h]
    simp [encode]
  have hlen := le16At_drop m (p + 1) 0
  rw [hnext, le16At_le16, Nat.mod_eq_of_lt hfits] at hlen
  exact hlen.symm

theorem drop_encode (h : m.drop p = encode f ++ rest) : m.drop (p + f.size) = rest := by
  rw [← List.drop_drop, h]
  exact List.drop_left' (encode_length f)

theorem bytesAt_value (h : m.drop p = encode f ++ rest) :
    bytesAt m (p + qmiTlvHdrSize) f.value.length = f.value := by
  have hsize : p + f.size ≤ m.length := by
    have hlen := congrArg List.length h
    simp only [List.length_drop, List.length_append, encode_length] at hlen
    have hpos : 0 < f.size := by
      simp only [Field.size, headerSize]
      omega
    omega
  rw [bytesAt_eq (by simp only [Field.size, headerSize, qmiTlvHdrSize] at hsize ⊢; omega),
    ← List.drop_drop, h]
  simp [encode, qmiTlvHdrSize, le16]

end

/-- A walk over TLVs that have been written, with the counter at their size. -/
theorem getTLVLoop_encodeAll {m rest : List UInt8} {fs : List Field} (type : UInt8) {p : ℕ}
    {fuel : ℕ} (tlvFind : ℕ) (h : m.drop p = encodeAll fs ++ rest)
    (hsize : (encodeAll fs).length < 65536) (hfuel : fs.length < fuel) :
    (getTLVLoop m type.toNat fuel tlvFind (encodeAll fs).length p).map
        (fun p => bytesAt m (p + qmiTlvHdrSize) (tlvLength m p)) = lookup type fs := by
  have htype : type.toNat ≤ 0x1000 := Nat.le_of_lt (Nat.lt_trans type.toNat_lt (by decide))
  induction fs generalizing p fuel tlvFind with
  | nil =>
      obtain ⟨fuel, rfl⟩ : ∃ k, fuel = k + 1 := ⟨fuel - 1, by omega⟩
      rw [getTLVLoop, encodeAll_nil, if_pos (by decide)]
      rfl
  | cons f fs ih =>
      obtain ⟨fuel, rfl⟩ : ∃ k, fuel = k + 1 := ⟨fuel - 1, by omega⟩
      have hfits : f.Fits := fits_of_encodeAll_lt hsize f (List.mem_cons_self ..)
      rw [encodeAll_cons, List.append_assoc] at h
      have hhere := tlvType_eq h
      have hlen := tlvLength_eq hfits h
      have htotal : (encodeAll (f :: fs)).length = f.value.length + 3 + (encodeAll fs).length := by
        simp only [encodeAll_cons, List.length_append, encode_length, Field.size, headerSize]
        omega
      rw [getTLVLoop, htotal, if_neg (by simp only [qmiTlvHdrSize]; omega), if_neg (by omega),
        lookup_cons, hhere]
      by_cases heq : f.type = type
      · rw [if_pos ⟨htype, by rw [heq]⟩, if_pos heq, Option.map_some, hlen, bytesAt_value h]
      · have hne : ¬ (type.toNat ≤ 0x1000 ∧ f.type.toNat = type.toNat) := fun hc =>
          heq (UInt8.toNat_inj.1 hc.2)
        have hnext : m.drop (p + tlvLength m p + qmiTlvHdrSize) = encodeAll fs ++ rest := by
          rw [hlen, ← drop_encode h]
          congr 1
          simp only [Field.size, headerSize, qmiTlvHdrSize]
          omega
        have hcounter : (f.value.length + 3 + (encodeAll fs).length + 65536 * 2 -
            (tlvLength m p + qmiTlvHdrSize)) % 65536 = (encodeAll fs).length := by
          rw [hlen]
          simp only [qmiTlvHdrSize]
          omega
        rw [if_neg hne, if_neg heq, hcounter]
        exact ih (tlvFind + 1) hnext (by omega) (by simp at hfuel; omega)

/-- **The value that `GetTLV` finds is the one that has been written.** -/
theorem tlvValue_eq_lookup {m : List UInt8} {fs : List Field} (type : UInt8)
    (h : m.drop firstTLV = encodeAll fs) (hlength : qmuxMsgHdrLength m = (encodeAll fs).length)
    (hsize : (encodeAll fs).length < 65536) : tlvValue m type = lookup type fs := by
  have hfuel : fs.length < 65536 + m.length :=
    Nat.lt_of_le_of_lt (length_le_encodeAll fs) (by omega)
  rw [tlvValue, getTLV, hlength]
  exact @getTLVLoop_encodeAll m [] fs type firstTLV _ 0 (by rw [h, List.append_nil]) hsize hfuel

end Qmi

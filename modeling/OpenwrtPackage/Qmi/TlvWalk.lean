/-
**The walk of `GetTLV` through the memory.**

`GetTLV` serves two kinds of keys: up to `0x1000` a key is a type, above it the number of a TLV.  It
follows the lengths that it finds in the memory, with a counter of 16 bits, and `dump_tlv` asks it
for one number after the other.  When the message is a list of TLVs and its length field is their
size, the walk goes from one to the next.

* `Qmi.getTLVAt` — `GetTLV` on a header anywhere in the memory; `Qmi.getTLVFrom` — its loop;
* `Qmi.dumpTLV` — `dump_tlv`, with what it prints;
* `Qmi.getTLV_eq_run` — on the bytes of a message it is the walk that the decoders use;
* `Qmi.run_getTLVFrom_append` — the walk over whole TLVs;
* `Qmi.getTLVAt_encodeAll` — **what the lookups and the dump of a well-formed message give**.
-/
import OpenwrtPackage.Lib.Reads
import OpenwrtPackage.Qmi.Fields

set_option relaxedAutoImplicit false
set_option autoImplicit false

namespace Qmi

open Reads Memory Tlv

/-! ### The loops -/

/-- The test of `GetTLV` on the TLV with the number `tlvFind`; only a type is looked up in it. -/
def getTLVTest (type : ℤ) (tlvFind pTLVHdr : ℕ) : Reads UInt8 Bool :=
  if 0x1000 < type then pure (decide ((tlvFind : ℤ) + 0x1000 = type))
  else do
    let tlvType ← byte pTLVHdr
    pure (decide ((tlvType.toNat : ℤ) = type))

/-- The loop of `GetTLV`, which has found nothing or a place when it ends; `length` has 16 bits. -/
def getTLVFrom (type : ℤ) : ℕ → ℕ → ℕ → ℕ → Reads UInt8 (Option (Option ℕ))
  | 0, _, _, _ => pure none
  | fuel + 1, tlvFind, length, pTLVHdr =>
      if length < qmiTlvHdrSize then pure (some none)
      else do
        let found ← getTLVTest type (tlvFind + 1) pTLVHdr
        if found then pure (some (some pTLVHdr))
        else
          let tlvLength ← le16 (pTLVHdr + 1)
          getTLVFrom type fuel (tlvFind + 1)
            ((length + 65536 * 2 - (tlvLength + qmiTlvHdrSize)) % 65536)
            (pTLVHdr + tlvLength + qmiTlvHdrSize)

/-- `GetTLV` -/
def getTLVAt (fuel pQMUXMsgHdr : ℕ) (type : ℤ) : Reads UInt8 (Option (Option ℕ)) := do
  let length ← le16 (pQMUXMsgHdr + 2)
  getTLVFrom type fuel 0 length (pQMUXMsgHdr + qcqmuxMsgHdrSize)

/-- What `dump_tlv` prints of a TLV: type, length and value. -/
def dumpField (tlvHdr : ℕ) : Reads UInt8 Field := do
  let tlvType ← byte tlvHdr
  let tlvLength ← le16 (tlvHdr + 1)
  let value ← bytes (tlvHdr + qmiTlvHdrSize) tlvLength
  pure ⟨tlvType, value⟩

/-- The loop of `dump_tlv`.  The first fuel is that of each lookup. -/
def dumpTLVFrom (lookupFuel pQMUXMsgHdr : ℕ) : ℕ → ℕ → Reads UInt8 (Option (List Field))
  | 0, _ => pure none
  | fuel + 1, tlvFind => do
      let tlvHdr ← getTLVAt lookupFuel pQMUXMsgHdr (0x1000 + ((tlvFind + 1 : ℕ) : ℤ))
      match tlvHdr with
      | none => pure none
      | some none => pure (some [])
      | some (some p) => do
          let field ← dumpField p
          let rest ← dumpTLVFrom lookupFuel pQMUXMsgHdr fuel (tlvFind + 1)
          pure (rest.map (field :: ·))

/-- `dump_tlv` -/
def dumpTLV (fuel pQMUXMsgHdr : ℕ) : Reads UInt8 (Option (List Field)) :=
  dumpTLVFrom fuel pQMUXMsgHdr fuel 0

/-! ### One round -/

/-- The TLV with this number and this type is the one that the key means. -/
def Wanted (type : ℤ) (tlvFind : ℕ) (tlvType : UInt8) : Prop :=
  if 0x1000 < type then (tlvFind : ℤ) + 0x1000 = type else (tlvType.toNat : ℤ) = type

instance (type : ℤ) (tlvFind : ℕ) (tlvType : UInt8) : Decidable (Wanted type tlvFind tlvType) :=
  inferInstanceAs (Decidable (if 0x1000 < type then (tlvFind : ℤ) + 0x1000 = type
    else (tlvType.toNat : ℤ) = type))

theorem wanted_number {type : ℤ} (h : 0x1000 < type) (tlvFind : ℕ) (tlvType : UInt8) :
    Wanted type tlvFind tlvType ↔ (tlvFind : ℤ) + 0x1000 = type := by
  rw [Wanted, if_pos h]

theorem wanted_type {type : ℤ} (h : type ≤ 0x1000) (tlvFind : ℕ) (tlvType : UInt8) :
    Wanted type tlvFind tlvType ↔ (tlvType.toNat : ℤ) = type := by
  rw [Wanted, if_neg (Int.not_lt.2 h)]

section

variable {mem : ℕ → UInt8} {P : ℕ → Prop} {type : ℤ} {fuel tlvFind length p : ℕ}

theorem run_getTLVTest :
    run mem (getTLVTest type tlvFind p) = decide (Wanted type tlvFind (mem p)) := by
  rw [getTLVTest]
  by_cases h : 0x1000 < type
  · rw [if_pos h, run_pure, decide_eq_decide, wanted_number h]
  · rw [if_neg h, run_bind, run_byte, run_pure, decide_eq_decide, wanted_type (Int.not_lt.1 h)]

theorem within_getTLVTest :
    Within P mem (getTLVTest type tlvFind p) ↔ (type ≤ 0x1000 → P p) := by
  rw [getTLVTest]
  by_cases h : 0x1000 < type
  · rw [if_pos h]
    exact iff_of_true (within_pure _) fun hle => absurd hle (Int.not_le.2 h)
  · rw [if_neg h, within_bind, within_byte]
    exact ⟨fun hp _ => hp.1, fun hp => ⟨hp (Int.not_lt.1 h), within_pure _⟩⟩

theorem getTLVFrom_short (h : length < qmiTlvHdrSize) :
    getTLVFrom type (fuel + 1) tlvFind length p = pure (some none) := by
  rw [getTLVFrom, if_pos h]

theorem run_getTLVFrom_wanted (h : qmiTlvHdrSize ≤ length)
    (hwanted : Wanted type (tlvFind + 1) (mem p)) :
    run mem (getTLVFrom type (fuel + 1) tlvFind length p) = some (some p) := by
  rw [getTLVFrom, if_neg (Nat.not_lt.2 h), run_bind, run_getTLVTest, decide_eq_true hwanted]
  rfl

theorem run_getTLVFrom_next (h : qmiTlvHdrSize ≤ length)
    (hwanted : ¬ Wanted type (tlvFind + 1) (mem p)) :
    run mem (getTLVFrom type (fuel + 1) tlvFind length p) =
      run mem (getTLVFrom type fuel (tlvFind + 1)
        ((length + 65536 * 2 - (number16 mem (p + 1) + qmiTlvHdrSize)) % 65536)
        (p + number16 mem (p + 1) + qmiTlvHdrSize)) := by
  rw [getTLVFrom, if_neg (Nat.not_lt.2 h), run_bind, run_getTLVTest, decide_eq_false hwanted]
  rfl

end

/-! ### A TLV in the memory -/

section

variable {mem : ℕ → UInt8} {f : Field} {p : ℕ}

/-- A TLV that has been written is its three parts. -/
theorem holds_encode (hfits : f.Fits) (h : Holds mem p (encode f)) :
    mem p = f.type ∧ number16 mem (p + 1) = f.value.length ∧
      Holds mem (p + qmiTlvHdrSize) f.value := by
  rw [encode, List.cons_append, holds_cons, holds_append, Bytes.le16_length] at h
  obtain ⟨htype, hlength, hvalue⟩ := h
  refine ⟨htype, ?_, hvalue⟩
  rw [number16_load hlength, Nat.mod_eq_of_lt hfits]

theorem run_dumpField (hfits : f.Fits) (h : Holds mem p (encode f)) :
    run mem (dumpField p) = f := by
  obtain ⟨htype, hlength, hvalue⟩ := holds_encode hfits h
  simp only [dumpField, run_bind, run_byte, run_le16, run_bytes, run_pure, htype, hlength]
  rw [hvalue]

/-- The counter and the place behind a TLV of which there is all. -/
theorem behind_whole (f : Field) (p : ℕ) {size : ℕ} (hsize : f.size + size < 65536) :
    (f.size + size + 65536 * 2 - (f.value.length + qmiTlvHdrSize)) % 65536 = size ∧
      p + f.value.length + qmiTlvHdrSize = p + f.size := by
  have hfield : f.size = f.value.length + qmiTlvHdrSize := Nat.add_comm ..
  omega

theorem hdrSize_le (f : Field) (size : ℕ) : qmiTlvHdrSize ≤ f.size + size := by
  have hfield : f.size = f.value.length + qmiTlvHdrSize := Nat.add_comm ..
  omega

/-- The wanted TLV. -/
theorem run_getTLVFrom_found {type : ℤ} {fuel tlvFind : ℕ} (hfits : f.Fits)
    (h : Holds mem p (encode f)) (hwanted : Wanted type (tlvFind + 1) f.type) (size : ℕ) :
    run mem (getTLVFrom type (fuel + 1) tlvFind (f.size + size) p) = some (some p) := by
  obtain ⟨htype, -, -⟩ := holds_encode hfits h
  rw [← htype] at hwanted
  exact run_getTLVFrom_wanted (hdrSize_le f size) hwanted

/-- A TLV that is passed over. -/
theorem run_getTLVFrom_passed {type : ℤ} {fuel tlvFind size : ℕ} (hfits : f.Fits)
    (h : Holds mem p (encode f)) (hwanted : ¬ Wanted type (tlvFind + 1) f.type)
    (hsize : f.size + size < 65536) :
    run mem (getTLVFrom type (fuel + 1) tlvFind (f.size + size) p) =
      run mem (getTLVFrom type fuel (tlvFind + 1) size (p + f.size)) := by
  obtain ⟨htype, hlength, -⟩ := holds_encode hfits h
  obtain ⟨hcounter, hplace⟩ := behind_whole f p hsize
  rw [← htype] at hwanted
  rw [run_getTLVFrom_next (hdrSize_le f size) hwanted, hlength, hcounter, hplace]

end

/-! ### Whole TLVs -/

/-- The place of the wanted one among these TLVs, which stand from `p` on. -/
def placeFrom (type : ℤ) : ℕ → ℕ → List Field → Option ℕ
  | _, _, [] => none
  | tlvFind, p, f :: fs =>
      if Wanted type (tlvFind + 1) f.type then some p
      else placeFrom type (tlvFind + 1) (p + f.size) fs

/-- The place of the TLV with this index. -/
def placeOf (pQMUXMsgHdr : ℕ) (fs : List Field) (i : ℕ) : ℕ :=
  pQMUXMsgHdr + qcqmuxMsgHdrSize + (encodeAll (fs.take i)).length

section

variable {mem : ℕ → UInt8} {type : ℤ} {fs : List Field}

/-- **The walk over whole TLVs** ends at the wanted one or goes on behind them, with the counter at
what is left. -/
theorem run_getTLVFrom_append {fuel tlvFind rest p : ℕ} (h : Holds mem p (encodeAll fs))
    (hfits : ∀ f ∈ fs, f.Fits) (hsize : (encodeAll fs).length + rest < 65536) :
    run mem (getTLVFrom type (fs.length + fuel) tlvFind ((encodeAll fs).length + rest) p) =
      match placeFrom type tlvFind p fs with
      | some q => some (some q)
      | none => run mem (getTLVFrom type fuel (tlvFind + fs.length) rest
          (p + (encodeAll fs).length)) := by
  induction fs generalizing tlvFind p with
  | nil => simp [placeFrom]
  | cons f fs ih =>
      rw [encodeAll_cons, holds_append, encode_length] at h
      have hfield := hfits f (List.mem_cons_self ..)
      have hfuel : (f :: fs).length + fuel = fs.length + fuel + 1 := Nat.add_right_comm ..
      have hnumber : tlvFind + (f :: fs).length = tlvFind + 1 + fs.length := by
        rw [List.length_cons]
        omega
      rw [encodeAll_cons, List.length_append, encode_length] at hsize ⊢
      rw [hfuel, hnumber, Nat.add_assoc f.size, placeFrom]
      by_cases hwanted : Wanted type (tlvFind + 1) f.type
      · rw [if_pos hwanted, run_getTLVFrom_found hfield h.1 hwanted]
      · rw [if_neg hwanted, run_getTLVFrom_passed hfield h.1 hwanted (by omega),
          ← Nat.add_assoc p]
        exact ih h.2 (fun g hg => hfits g (List.mem_cons_of_mem _ hg)) (by omega)

/-- Each of the TLVs stands behind those in front of it. -/
theorem holds_encode_getElem {p : ℕ} (h : Holds mem p (encodeAll fs)) {i : ℕ}
    (hi : i < fs.length) : Holds mem (p + (encodeAll (fs.take i)).length) (encode fs[i]) := by
  rw [← List.take_append_drop i fs, encodeAll_append, holds_append, List.drop_eq_getElem_cons hi,
    encodeAll_cons, holds_append] at h
  exact h.2.1

/-- Up to `0x1000` a key means the first TLV of its type, -/
theorem placeFrom_type (htype : type ≤ 0x1000) (tlvFind p : ℕ) :
    placeFrom type tlvFind p fs =
      (fs.findIdx? fun f => (f.type.toNat : ℤ) = type).map
        fun i => p + (encodeAll (fs.take i)).length := by
  induction fs generalizing tlvFind p with
  | nil => rfl
  | cons f fs ih =>
      rw [placeFrom, List.findIdx?_cons]
      by_cases heq : (f.type.toNat : ℤ) = type
      · rw [if_pos ((wanted_type htype ..).2 heq)]
        simp [heq]
      · rw [if_neg (fun h => heq ((wanted_type htype ..).1 h)), ih]
        simp only [heq, decide_false, Bool.false_eq_true, if_false, Option.map_map]
        congr 1
        funext i
        simp only [Function.comp_apply, List.take_succ_cons, encodeAll_cons, List.length_append,
          encode_length]
        omega

/-- and above it the TLV with its number. -/
theorem placeFrom_number {i tlvFind : ℕ} (hi : tlvFind < i) (p : ℕ) :
    placeFrom (0x1000 + (i : ℤ)) tlvFind p fs =
      if i ≤ tlvFind + fs.length then some (p + (encodeAll (fs.take (i - tlvFind - 1))).length)
      else none := by
  induction fs generalizing tlvFind p with
  | nil => rw [placeFrom, if_neg (by simp only [List.length_nil]; omega)]
  | cons f fs ih =>
      have hwanted := @wanted_number (0x1000 + (i : ℤ)) (by omega) (tlvFind + 1) f.type
      rw [placeFrom, List.length_cons]
      by_cases heq : i = tlvFind + 1
      · have hnumber : i - tlvFind - 1 = 0 := by omega
        rw [if_pos (hwanted.2 (by omega)), if_pos (by omega), hnumber]
        rfl
      · have hindex : i - tlvFind - 1 = i - (tlvFind + 1) - 1 + 1 := by omega
        have hlater : i ≤ tlvFind + 1 + fs.length ↔ i ≤ tlvFind + (fs.length + 1) := by omega
        rw [if_neg (fun h => heq (by have := hwanted.1 h; omega)), ih (by omega), hindex,
          List.take_succ_cons, encodeAll_cons, List.length_append, encode_length,
          Nat.add_assoc p]
        simp only [hlater]

end

/-! ### Well-formed messages -/

/-- A message that is a list of TLVs: the length field is their size. -/
structure IsTlvMessage (mem : ℕ → UInt8) (pQMUXMsgHdr : ℕ) (fs : List Field) : Prop where
  size : (encodeAll fs).length ≤ 65535
  length : Holds mem (pQMUXMsgHdr + 2) (Bytes.le16 (encodeAll fs).length)
  tlvs : Holds mem (pQMUXMsgHdr + qcqmuxMsgHdrSize) (encodeAll fs)

section

variable {mem : ℕ → UInt8} {hdr : ℕ} {fs : List Field}

theorem run_getTLVAt (h : IsTlvMessage mem hdr fs) (type : ℤ) {fuel : ℕ}
    (hfuel : fs.length < fuel) :
    run mem (getTLVAt fuel hdr type) =
      some (placeFrom type 0 (hdr + qcqmuxMsgHdrSize) fs) := by
  obtain ⟨k, rfl⟩ : ∃ k, fuel = fs.length + (k + 1) := ⟨fuel - fs.length - 1, by omega⟩
  have hsize := h.size
  have hlength : number16 mem (hdr + 2) = (encodeAll fs).length + 0 := by
    rw [number16_load h.length]
    omega
  rw [getTLVAt, run_bind, run_le16, hlength,
    run_getTLVFrom_append h.tlvs (fits_of_encodeAll_lt (by omega)) (by omega)]
  cases placeFrom type 0 (hdr + qcqmuxMsgHdrSize) fs with
  | some q => rfl
  | none => rw [getTLVFrom_short (by decide), run_pure]

/-- The TLV at its place. -/
theorem IsTlvMessage.holds_placeOf (h : IsTlvMessage mem hdr fs) {i : ℕ} (hi : i < fs.length) :
    Holds mem (placeOf hdr fs i) (encode fs[i]) :=
  holds_encode_getElem h.tlvs hi

/-- The rounds of `dump_tlv` from the TLV with the index `i` on. -/
theorem run_dumpTLVFrom (h : IsTlvMessage mem hdr fs) {lookupFuel : ℕ}
    (hlookup : fs.length < lookupFuel) {fuel i : ℕ} (hi : i ≤ fs.length)
    (hfuel : fs.length - i < fuel) :
    run mem (dumpTLVFrom lookupFuel hdr fuel i) = some (fs.drop i) := by
  induction fuel generalizing i with
  | zero => omega
  | succ fuel ih =>
      have hplace := @placeFrom_number fs (i + 1) 0 (by omega) (hdr + qcqmuxMsgHdrSize)
      rw [dumpTLVFrom, run_bind, run_getTLVAt h _ hlookup, hplace]
      rcases Nat.eq_or_lt_of_le hi with rfl | hlt
      · rw [if_neg (by omega), List.drop_length]
        rfl
      · have hfits := fits_of_encodeAll_lt (Nat.lt_succ_of_le h.size) fs[i] (List.getElem_mem hlt)
        have hfield := run_dumpField hfits (h.holds_placeOf hlt)
        rw [placeOf] at hfield
        rw [if_pos (by omega), List.drop_eq_getElem_cons hlt]
        simp only [Nat.sub_zero, Nat.add_sub_cancel, run_bind, run_pure, hfield,
          ih (show i + 1 ≤ fs.length by omega) (by omega), Option.map_some]

/-- **What the lookups and the dump of a well-formed message give.**  A key up to `0xFF` means the
first TLV of this type, `0x1000 + i` the `i`-th TLV, and the dump prints every TLV once. -/
theorem getTLVAt_encodeAll (h : IsTlvMessage mem hdr fs) {fuel : ℕ} (hfuel : fs.length < fuel) :
    (∀ type : ℤ, type ≤ 0xFF → run mem (getTLVAt fuel hdr type) =
      some ((fs.findIdx? fun f => (f.type.toNat : ℤ) = type).map (placeOf hdr fs))) ∧
    (∀ i : ℕ, 1 ≤ i → i ≤ fs.length → run mem (getTLVAt fuel hdr (0x1000 + (i : ℤ))) =
      some (some (placeOf hdr fs (i - 1)))) ∧
    (∀ i : ℕ, fs.length < i → run mem (getTLVAt fuel hdr (0x1000 + (i : ℤ))) = some none) ∧
    (∀ (i : ℕ) (hi : i < fs.length), Holds mem (placeOf hdr fs i) (encode fs[i])) ∧
    run mem (dumpTLV fuel hdr) = some fs := by
  refine ⟨fun type htype => ?_, fun i hpos hi => ?_, fun i hi => ?_,
    fun i hi => h.holds_placeOf hi, ?_⟩
  · rw [run_getTLVAt h type hfuel, placeFrom_type (by omega)]
    rfl
  · rw [run_getTLVAt h _ hfuel, placeFrom_number hpos, if_pos (by omega)]
    rfl
  · rw [run_getTLVAt h _ hfuel, placeFrom_number (by omega), if_neg (by omega)]
  · exact run_dumpTLVFrom h hfuel (Nat.zero_le _) hfuel

end

/-- A response with its result and one more TLV. -/
def twoTlvs : ℕ → UInt8 :=
  store (fun _ => 0xEE) 2 (Bytes.le16 11 ++ encodeAll [⟨0x02, [0, 0, 0, 0]⟩, ⟨0x10, [7]⟩])

theorem getTLVAt_encodeAll_twoTlvs :
    run twoTlvs (getTLVAt 3 0 0x10) = some (some 11) ∧
      run twoTlvs (dumpTLV 3 0) = some [⟨0x02, [0, 0, 0, 0]⟩, ⟨0x10, [7]⟩] := by
  have h : IsTlvMessage twoTlvs 0 [⟨0x02, [0, 0, 0, 0]⟩, ⟨0x10, [7]⟩] :=
    ⟨by decide, by rfl, by rfl⟩
  have hall := getTLVAt_encodeAll h (show 2 < 3 by decide)
  exact ⟨hall.1 0x10 (by decide), hall.2.2.2.2⟩

/-! ### The walk of the decoders -/

/-- The loop on the bytes of a message, where bytes behind it read as zero. -/
theorem getTLVLoop_eq_run (m : List UInt8) (type fuel tlvFind length p : ℕ) :
    getTLVLoop m type fuel tlvFind length p =
      (run (Bytes.byteAt m) (getTLVFrom type fuel tlvFind length p)).getD none := by
  induction fuel generalizing tlvFind length p with
  | zero => rfl
  | succ fuel ih =>
      rw [getTLVLoop]
      by_cases hshort : length < qmiTlvHdrSize
      · rw [if_pos hshort, getTLVFrom_short hshort]
        rfl
      · have hlong := Nat.not_lt.1 hshort
        rw [if_neg hshort]
        by_cases hwanted : Wanted type (tlvFind + 1) (Bytes.byteAt m p)
        · rw [run_getTLVFrom_wanted hlong hwanted]
          rw [Wanted] at hwanted
          split at hwanted
          · rw [if_pos (by omega)]
            rfl
          · rw [if_neg (by omega), if_pos ⟨by omega, by rw [tlvType]; omega⟩]
            rfl
        · rw [run_getTLVFrom_next hlong hwanted, ← ih]
          rw [Wanted] at hwanted
          split at hwanted
          · rw [if_neg (by omega), if_neg (by omega)]
            rfl
          · rw [if_neg (by omega), if_neg (by rw [tlvType]; omega)]
            rfl

/-- **`GetTLV` on the bytes of a message** is the walk that the decoders of this development use. -/
theorem getTLV_eq_run (m : List UInt8) (type : ℕ) :
    getTLV m type = (run (Bytes.byteAt m) (getTLVAt (65536 + m.length) 9 type)).getD none := by
  rw [getTLV, getTLVLoop_eq_run]
  rfl

end Qmi

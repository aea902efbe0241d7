/-
**`GetTLV` on any bytes.**

The counter of `GetTLV` says how many bytes of the message are left, as long as every TLV ends
inside the message.  A TLV that is cut off is returned like any other when it is the wanted one, and
when it is passed over the counter wraps, so that the walk goes on behind the message.

* `Qmi.SafeLookup` — what a lookup has to do on any bytes;
* `Qmi.LookupClean`, `Qmi.DumpClean` — the messages on which the lookup of a key, and the dump, are
  safe;
* `Qmi.safeLookup_iff` — one lookup;
* `Qmi.dumpTLV_terminates_iff` — the dump, whatever lies behind the message;
* `Qmi.getTLVAt_safe_iff` — **the exact condition**.
-/
import OpenwrtPackage.Qmi.TlvWalk

set_option relaxedAutoImplicit false
set_option autoImplicit false

namespace Qmi

open Reads Memory Tlv

/-! ### Fuel -/

section

variable {mem : ℕ → UInt8} {P : ℕ → Prop} {type : ℤ} {fuel tlvFind length p hdr : ℕ}

/-- A walk that has ended does not use more fuel. -/
theorem run_getTLVFrom_mono {r : Option ℕ}
    (h : run mem (getTLVFrom type fuel tlvFind length p) = some r) (k : ℕ) :
    run mem (getTLVFrom type (fuel + k) tlvFind length p) = some r := by
  induction fuel generalizing tlvFind length p with
  | zero => simp [getTLVFrom] at h
  | succ fuel ih =>
      rw [Nat.add_right_comm]
      by_cases hshort : length < qmiTlvHdrSize
      · rw [getTLVFrom_short hshort] at h ⊢
        exact h
      · have hlong := Nat.not_lt.1 hshort
        by_cases hwanted : Wanted type (tlvFind + 1) (mem p)
        · rw [run_getTLVFrom_wanted hlong hwanted] at h ⊢
          exact h
        · rw [run_getTLVFrom_next hlong hwanted] at h ⊢
          exact ih h

theorem within_getTLVFrom_next (h : qmiTlvHdrSize ≤ length)
    (hwanted : ¬ Wanted type (tlvFind + 1) (mem p)) :
    Within P mem (getTLVFrom type (fuel + 1) tlvFind length p) ↔
      (type ≤ 0x1000 → P p) ∧ (P (p + 1) ∧ P (p + 2)) ∧
        Within P mem (getTLVFrom type fuel (tlvFind + 1)
          ((length + 65536 * 2 - (number16 mem (p + 1) + qmiTlvHdrSize)) % 65536)
          (p + number16 mem (p + 1) + qmiTlvHdrSize)) := by
  rw [getTLVFrom, if_neg (Nat.not_lt.2 h), within_bind, within_getTLVTest, run_getTLVTest,
    decide_eq_false hwanted]
  simp only [Bool.false_eq_true, if_false, within_bind, within_le16, run_le16]

theorem within_getTLVFrom_wanted (h : qmiTlvHdrSize ≤ length)
    (hwanted : Wanted type (tlvFind + 1) (mem p)) :
    Within P mem (getTLVFrom type (fuel + 1) tlvFind length p) ↔ (type ≤ 0x1000 → P p) := by
  rw [getTLVFrom, if_neg (Nat.not_lt.2 h), within_bind, within_getTLVTest, run_getTLVTest,
    decide_eq_true hwanted]
  exact and_iff_left trivial

/-- With more fuel a walk looks at the same places first. -/
theorem within_getTLVFrom_of_add (k : ℕ)
    (h : Within P mem (getTLVFrom type (fuel + k) tlvFind length p)) :
    Within P mem (getTLVFrom type fuel tlvFind length p) := by
  induction fuel generalizing tlvFind length p with
  | zero => trivial
  | succ fuel ih =>
      rw [Nat.add_right_comm] at h
      by_cases hshort : length < qmiTlvHdrSize
      · rw [getTLVFrom_short hshort]
        trivial
      · have hlong := Nat.not_lt.1 hshort
        by_cases hwanted : Wanted type (tlvFind + 1) (mem p)
        · rw [within_getTLVFrom_wanted hlong hwanted] at h ⊢
          exact h
        · rw [within_getTLVFrom_next hlong hwanted] at h ⊢
          exact ⟨h.1, h.2.1, ih h.2.2⟩

end

/-! ### Whole TLVs -/

section

variable {mem : ℕ → UInt8} {P : ℕ → Prop} {type : ℤ} {fs : List Field}

theorem within_getTLVFrom_found {f : Field} {fuel tlvFind p : ℕ} (hfits : f.Fits)
    (h : Holds mem p (encode f)) (hwanted : Wanted type (tlvFind + 1) f.type) (size : ℕ) :
    Within P mem (getTLVFrom type (fuel + 1) tlvFind (f.size + size) p) ↔
      (type ≤ 0x1000 → P p) := by
  obtain ⟨htype, -, -⟩ := holds_encode hfits h
  rw [← htype] at hwanted
  exact within_getTLVFrom_wanted (hdrSize_le f size) hwanted

theorem within_getTLVFrom_passed {f : Field} {fuel tlvFind size p : ℕ} (hfits : f.Fits)
    (h : Holds mem p (encode f)) (hwanted : ¬ Wanted type (tlvFind + 1) f.type)
    (hsize : f.size + size < 65536) :
    Within P mem (getTLVFrom type (fuel + 1) tlvFind (f.size + size) p) ↔
      (type ≤ 0x1000 → P p) ∧ (P (p + 1) ∧ P (p + 2)) ∧
        Within P mem (getTLVFrom type fuel (tlvFind + 1) size (p + f.size)) := by
  obtain ⟨htype, hlength, -⟩ := holds_encode hfits h
  obtain ⟨hcounter, hplace⟩ := behind_whole f p hsize
  rw [← htype] at hwanted
  rw [within_getTLVFrom_next (hdrSize_le f size) hwanted, hlength, hcounter, hplace]

/-- The walk over whole TLVs looks at their bytes only. -/
theorem within_getTLVFrom_append {fuel tlvFind rest p : ℕ} (h : Holds mem p (encodeAll fs))
    (hfits : ∀ f ∈ fs, f.Fits) (hsize : (encodeAll fs).length + rest < 65536)
    (hP : ∀ i, p ≤ i → i < p + (encodeAll fs).length → P i) :
    Within P mem (getTLVFrom type (fs.length + fuel) tlvFind ((encodeAll fs).length + rest) p) ↔
      (placeFrom type tlvFind p fs = none → Within P mem
        (getTLVFrom type fuel (tlvFind + fs.length) rest (p + (encodeAll fs).length))) := by
  induction fs generalizing tlvFind p with
  | nil => simp [placeFrom]
  | cons f fs ih =>
      rw [encodeAll_cons, holds_append, encode_length] at h
      have hfield := hfits f (List.mem_cons_self ..)
      have hhdr := hdrSize_le f 0
      have hthree : qmiTlvHdrSize = 3 := rfl
      have hfuel : (f :: fs).length + fuel = fs.length + fuel + 1 := Nat.add_right_comm ..
      have hnumber : tlvFind + (f :: fs).length = tlvFind + 1 + fs.length := by
        rw [List.length_cons]
        omega
      rw [encodeAll_cons, List.length_append, encode_length] at hsize hP ⊢
      rw [hfuel, hnumber, Nat.add_assoc f.size, placeFrom]
      by_cases hwanted : Wanted type (tlvFind + 1) f.type
      · rw [if_pos hwanted, within_getTLVFrom_found hfield h.1 hwanted]
        exact iff_of_true (fun _ => hP p (Nat.le_refl _) (by omega)) (by simp)
      · rw [if_neg hwanted, within_getTLVFrom_passed hfield h.1 hwanted (by omega),
          ← Nat.add_assoc p,
          ih h.2 (fun g hg => hfits g (List.mem_cons_of_mem _ hg)) (by omega)
            (fun i hi hlt => hP i (by omega) (by omega))]
        constructor
        · exact fun hall => hall.2.2
        · exact fun hrest => ⟨fun _ => hP p (by omega) (by omega),
            ⟨hP _ (by omega) (by omega), hP _ (by omega) (by omega)⟩, hrest⟩

/-- The place is that of one of the TLVs. -/
theorem placeFrom_eq_some {tlvFind p q : ℕ} (h : placeFrom type tlvFind p fs = some q) :
    ∃ (i : ℕ) (hi : i < fs.length), q = p + (encodeAll (fs.take i)).length ∧
      Wanted type (tlvFind + i + 1) fs[i].type := by
  induction fs generalizing tlvFind p with
  | nil => simp [placeFrom] at h
  | cons f fs ih =>
      rw [placeFrom] at h
      by_cases hwanted : Wanted type (tlvFind + 1) f.type
      · rw [if_pos hwanted, Option.some_inj] at h
        exact ⟨0, Nat.succ_pos _, h.symm, hwanted⟩
      · rw [if_neg hwanted] at h
        obtain ⟨i, hi, hq, hi'⟩ := ih h
        refine ⟨i + 1, Nat.succ_lt_succ hi, ?_, ?_⟩
        · rw [List.take_succ_cons, encodeAll_cons, List.length_append, encode_length, hq,
            Nat.add_assoc]
        · have hnumber : tlvFind + 1 + i + 1 = tlvFind + (i + 1) + 1 := by omega
          rw [hnumber] at hi'
          exact hi'

theorem placeFrom_eq_none {tlvFind p : ℕ} (h : placeFrom type tlvFind p fs = none) :
    ∀ (i : ℕ) (hi : i < fs.length), ¬ Wanted type (tlvFind + i + 1) fs[i].type := by
  induction fs generalizing tlvFind p with
  | nil => exact fun i hi => absurd hi (Nat.not_lt_zero i)
  | cons f fs ih =>
      rw [placeFrom] at h
      by_cases hwanted : Wanted type (tlvFind + 1) f.type
      · rw [if_pos hwanted] at h
        cases h
      · rw [if_neg hwanted] at h
        intro i hi
        cases i with
        | zero => exact hwanted
        | succ i =>
            have hnumber : tlvFind + (i + 1) + 1 = tlvFind + 1 + i + 1 := by omega
            rw [hnumber]
            exact ih h i (Nat.lt_of_succ_lt_succ hi)

/-- A TLV of a list ends inside the list. -/
theorem encodeAll_take_size_le {i : ℕ} (hi : i < fs.length) :
    (encodeAll (fs.take i)).length + fs[i].size ≤ (encodeAll fs).length := by
  have hsplit : (encodeAll (fs.take i ++ fs.drop i)).length = (encodeAll fs).length := by
    rw [List.take_append_drop]
  rw [List.drop_eq_getElem_cons hi, encodeAll_append, encodeAll_cons, List.length_append,
    List.length_append, encode_length] at hsplit
  omega

end

/-! ### What a lookup has to do -/

/-- The `Length` bytes behind the header. -/
def tlvBytes (mem : ℕ → UInt8) (pQMUXMsgHdr : ℕ) : List UInt8 :=
  load mem (pQMUXMsgHdr + qcqmuxMsgHdrSize) (number16 mem (pQMUXMsgHdr + 2))

/-- The length field and the bytes behind the header. -/
def InMessage (mem : ℕ → UInt8) (pQMUXMsgHdr p : ℕ) : Prop :=
  pQMUXMsgHdr + 2 ≤ p ∧ p < pQMUXMsgHdr + qcqmuxMsgHdrSize + number16 mem (pQMUXMsgHdr + 2)

/-- The lookup comes to an end, looks at bytes of the message only, and a TLV that it returns ends
inside the message. -/
structure SafeLookup (mem : ℕ → UInt8) (pQMUXMsgHdr : ℕ) (type : ℤ) : Prop where
  terminates : ∃ fuel, (run mem (getTLVAt fuel pQMUXMsgHdr type)).isSome
  inside : ∀ fuel, Within (InMessage mem pQMUXMsgHdr) mem (getTLVAt fuel pQMUXMsgHdr type)
  found : ∀ fuel p, run mem (getTLVAt fuel pQMUXMsgHdr type) = some (some p) →
    pQMUXMsgHdr + qcqmuxMsgHdrSize ≤ p ∧ p + qmiTlvHdrSize + number16 mem (p + 1) ≤
      pQMUXMsgHdr + qcqmuxMsgHdrSize + number16 mem (pQMUXMsgHdr + 2)

/-- The counter has fewer than three bytes left behind a TLV that is cut off. -/
def WalkEnds (rest : List UInt8) : Prop :=
  rest.length + 65536 - (Bytes.le16At rest 1 + qmiTlvHdrSize) < qmiTlvHdrSize

instance (rest : List UInt8) : Decidable (WalkEnds rest) := inferInstanceAs (Decidable (_ < _))

/-- The key means one of the whole TLVs, or no more than two bytes are left behind them, or what is
left is not what the key means and wraps the counter to less than a header. -/
def LookupClean (type : ℤ) (m : List UInt8) : Prop :=
  (∃ (i : ℕ) (h : i < (split m).1.length), Wanted type (i + 1) (split m).1[i].type) ∨
    (split m).2.length < qmiTlvHdrSize ∨
    (¬ Wanted type ((split m).1.length + 1) (Bytes.byteAt (split m).2 0) ∧ WalkEnds (split m).2)

/-- No more than two bytes are left behind the whole TLVs, or what is left wraps the counter to less
than a header. -/
def DumpClean (m : List UInt8) : Prop :=
  (split m).2.length < qmiTlvHdrSize ∨ WalkEnds (split m).2

/-- A message in the memory: whole TLVs, and what is left behind them. -/
structure Parts (mem : ℕ → UInt8) (pQMUXMsgHdr : ℕ) (fs : List Field) (rest : List UInt8) :
    Prop where
  tlvs : Holds mem (pQMUXMsgHdr + qcqmuxMsgHdrSize) (encodeAll fs)
  behind : Holds mem (pQMUXMsgHdr + qcqmuxMsgHdrSize + (encodeAll fs).length) rest
  length : number16 mem (pQMUXMsgHdr + 2) = (encodeAll fs).length + rest.length
  fits : ∀ f ∈ fs, f.Fits
  cut : Cut rest

theorem parts_split (mem : ℕ → UInt8) (hdr : ℕ) :
    Parts mem hdr (split (tlvBytes mem hdr)).1 (split (tlvBytes mem hdr)).2 := by
  have hall := encodeAll_split (tlvBytes mem hdr)
  have hholds : Holds mem (hdr + qcqmuxMsgHdrSize) (tlvBytes mem hdr) := holds_load ..
  have hlen : (tlvBytes mem hdr).length = number16 mem (hdr + 2) := length_load ..
  rw [← hall, holds_append] at hholds
  rw [← hall, List.length_append] at hlen
  exact ⟨hholds.1, hholds.2, hlen.symm, fits_split _, split_rest _⟩

namespace Parts

variable {mem : ℕ → UInt8} {hdr : ℕ} {fs : List Field} {rest : List UInt8} {type : ℤ}

theorem size (h : Parts mem hdr fs rest) : (encodeAll fs).length + rest.length < 65536 := by
  rw [← h.length]
  exact number16_lt mem _

/-- The lookup is the walk over the whole TLVs and what follows. -/
theorem run_getTLVAt (h : Parts mem hdr fs rest) (fuel : ℕ) :
    run mem (getTLVAt (fs.length + fuel) hdr type) =
      match placeFrom type 0 (hdr + qcqmuxMsgHdrSize) fs with
      | some q => some (some q)
      | none => run mem (getTLVFrom type fuel fs.length rest.length
          (hdr + qcqmuxMsgHdrSize + (encodeAll fs).length)) := by
  have hwalk := @run_getTLVFrom_append mem type fs fuel 0 rest.length (hdr + qcqmuxMsgHdrSize)
    h.tlvs h.fits h.size
  rw [Nat.zero_add] at hwalk
  rw [getTLVAt, run_bind, run_le16, h.length]
  exact hwalk

theorem within_getTLVAt (h : Parts mem hdr fs rest) (fuel : ℕ) :
    Within (InMessage mem hdr) mem (getTLVAt (fs.length + fuel) hdr type) ↔
      (placeFrom type 0 (hdr + qcqmuxMsgHdrSize) fs = none → Within (InMessage mem hdr) mem
        (getTLVFrom type fuel fs.length rest.length
          (hdr + qcqmuxMsgHdrSize + (encodeAll fs).length))) := by
  have hlength := h.length
  have hhdr : qcqmuxMsgHdrSize = 4 := rfl
  have htlvs : ∀ i, hdr + qcqmuxMsgHdrSize ≤ i →
      i < hdr + qcqmuxMsgHdrSize + (encodeAll fs).length → InMessage mem hdr i := by
    intro i hi hlt
    exact ⟨by omega, by omega⟩
  rw [getTLVAt, within_bind, within_le16, run_le16, h.length,
    within_getTLVFrom_append h.tlvs h.fits h.size htlvs, Nat.zero_add]
  exact and_iff_right ⟨⟨by omega, by omega⟩, ⟨by omega, by omega⟩⟩

/-- A TLV that is there as a whole ends inside the message. -/
theorem placeFrom_inside (h : Parts mem hdr fs rest) {q : ℕ}
    (hq : placeFrom type 0 (hdr + qcqmuxMsgHdrSize) fs = some q) :
    hdr + qcqmuxMsgHdrSize ≤ q ∧ q + qmiTlvHdrSize + number16 mem (q + 1) ≤
      hdr + qcqmuxMsgHdrSize + number16 mem (hdr + 2) := by
  obtain ⟨i, hi, rfl, -⟩ := placeFrom_eq_some hq
  obtain ⟨-, hlen, -⟩ := holds_encode (h.fits _ (List.getElem_mem hi))
    (holds_encode_getElem h.tlvs hi)
  have hend := encodeAll_take_size_le hi
  have hlength := h.length
  rw [Field.size, headerSize] at hend
  rw [hlen, qmiTlvHdrSize]
  omega

/-- The header of the TLV that is cut off. -/
theorem number16_rest (h : Parts mem hdr fs rest) (hlong : qmiTlvHdrSize ≤ rest.length) :
    mem (hdr + qcqmuxMsgHdrSize + (encodeAll fs).length) = Bytes.byteAt rest 0 ∧
      number16 mem (hdr + qcqmuxMsgHdrSize + (encodeAll fs).length + 1) =
        Bytes.le16At rest 1 := by
  have hrest := h.behind
  obtain ⟨b, low, high, rest, rfl⟩ : ∃ b low high r, rest = b :: low :: high :: r := by
    rcases rest with _ | ⟨b, _ | ⟨low, _ | ⟨high, r⟩⟩⟩
    · exact absurd hlong (by decide)
    · exact absurd hlong (by simp [qmiTlvHdrSize])
    · exact absurd hlong (by simp [qmiTlvHdrSize])
    · exact ⟨b, low, high, r, rfl⟩
  rw [holds_cons, holds_cons, holds_cons] at hrest
  obtain ⟨htype, hlow, hhigh, -⟩ := hrest
  refine ⟨htype, ?_⟩
  rw [number16, hlow, hhigh]
  rfl

end Parts

/-! ### One lookup -/

section

variable {mem : ℕ → UInt8} {hdr : ℕ} {fs : List Field} {rest : List UInt8} {type : ℤ}

/-- A lookup with some fuel is the front of one that has enough to pass over the whole TLVs. -/
theorem run_getTLVAt_mono {fuel : ℕ} {r : Option ℕ}
    (h : run mem (getTLVAt fuel hdr type) = some r) (k : ℕ) :
    run mem (getTLVAt (fuel + k) hdr type) = some r :=
  run_getTLVFrom_mono h k

theorem within_getTLVAt_of_add {P : ℕ → Prop} {fuel : ℕ} (k : ℕ)
    (h : Within P mem (getTLVAt (fuel + k) hdr type)) :
    Within P mem (getTLVAt fuel hdr type) := by
  rw [getTLVAt, within_bind] at h ⊢
  exact ⟨h.1, within_getTLVFrom_of_add k h.2⟩

/-- A lookup is safe when its walk is with two rounds behind the whole TLVs. -/
theorem SafeLookup.of_rounds {r : Option ℕ} {n : ℕ}
    (hrun : ∀ fuel, run mem (getTLVAt (n + (fuel + 2)) hdr type) = some r)
    (hinside : ∀ fuel, Within (InMessage mem hdr) mem (getTLVAt (n + (fuel + 2)) hdr type))
    (hfound : ∀ p, r = some p → hdr + qcqmuxMsgHdrSize ≤ p ∧
      p + qmiTlvHdrSize + number16 mem (p + 1) ≤
        hdr + qcqmuxMsgHdrSize + number16 mem (hdr + 2)) : SafeLookup mem hdr type where
  terminates := ⟨n + (0 + 2), by rw [hrun 0]; rfl⟩
  inside fuel := by
    have h := hinside fuel
    have hfuel : n + (fuel + 2) = fuel + (n + 2) := by omega
    rw [hfuel] at h
    exact within_getTLVAt_of_add _ h
  found fuel p hp := by
    have h := run_getTLVAt_mono hp (n + 2)
    have hfuel : fuel + (n + 2) = n + (fuel + 2) := by omega
    rw [hfuel, hrun, Option.some_inj] at h
    exact hfound p h

/-- The length of what is left is longer than what is left, so the counter goes below zero. -/
theorem Parts.counter_rest (h : Parts mem hdr fs rest) (hlong : qmiTlvHdrSize ≤ rest.length) :
    (rest.length + 65536 * 2 - (Bytes.le16At rest 1 + qmiTlvHdrSize)) % 65536 =
      rest.length + 65536 - (Bytes.le16At rest 1 + qmiTlvHdrSize) := by
  have hcut : rest.length < qmiTlvHdrSize + Bytes.le16At rest 1 :=
    h.cut.resolve_left (Nat.not_lt.2 hlong)
  have hlt := le16At_lt rest 1
  have hsize := h.size
  have hhdr : qmiTlvHdrSize = 3 := rfl
  omega

/-- What a lookup does that finds none of the whole TLVs, when what is left is passed over. -/
theorem Parts.run_rest (h : Parts mem hdr fs rest)
    (hnone : placeFrom type 0 (hdr + qcqmuxMsgHdrSize) fs = none)
    (hlong : qmiTlvHdrSize ≤ rest.length)
    (hwanted : ¬ Wanted type (fs.length + 1) (Bytes.byteAt rest 0)) (fuel : ℕ) :
    run mem (getTLVAt (fs.length + (fuel + 1)) hdr type) =
      run mem (getTLVFrom type fuel (fs.length + 1)
        (rest.length + 65536 - (Bytes.le16At rest 1 + qmiTlvHdrSize))
        (hdr + qcqmuxMsgHdrSize + (encodeAll fs).length + Bytes.le16At rest 1 +
          qmiTlvHdrSize)) := by
  obtain ⟨htype, hn⟩ := h.number16_rest hlong
  rw [h.run_getTLVAt, hnone]
  simp only
  rw [run_getTLVFrom_next hlong (by rw [htype]; exact hwanted), hn, h.counter_rest hlong]

theorem Parts.within_rest (h : Parts mem hdr fs rest)
    (hnone : placeFrom type 0 (hdr + qcqmuxMsgHdrSize) fs = none)
    (hlong : qmiTlvHdrSize ≤ rest.length)
    (hwanted : ¬ Wanted type (fs.length + 1) (Bytes.byteAt rest 0)) (fuel : ℕ) :
    Within (InMessage mem hdr) mem (getTLVAt (fs.length + (fuel + 1)) hdr type) ↔
      Within (InMessage mem hdr) mem (getTLVFrom type fuel (fs.length + 1)
        (rest.length + 65536 - (Bytes.le16At rest 1 + qmiTlvHdrSize))
        (hdr + qcqmuxMsgHdrSize + (encodeAll fs).length + Bytes.le16At rest 1 +
          qmiTlvHdrSize)) := by
  obtain ⟨htype, hn⟩ := h.number16_rest hlong
  have hcut : rest.length < qmiTlvHdrSize + Bytes.le16At rest 1 :=
    h.cut.resolve_left (Nat.not_lt.2 hlong)
  have hsize := h.size
  have hlength := h.length
  have hhdr : qmiTlvHdrSize = 3 := rfl
  have hmsg : qcqmuxMsgHdrSize = 4 := rfl
  rw [h.within_getTLVAt,
    within_getTLVFrom_next hlong (by rw [htype]; exact hwanted), hn, h.counter_rest hlong]
  constructor
  · exact fun hall => (hall hnone).2.2
  · exact fun hnext _ => ⟨fun _ => ⟨by omega, by omega⟩,
      ⟨⟨by omega, by omega⟩, ⟨by omega, by omega⟩⟩, hnext⟩

/-- A lookup that means a whole TLV is safe. -/
theorem Parts.safe_of_whole (h : Parts mem hdr fs rest) {q : ℕ}
    (hq : placeFrom type 0 (hdr + qcqmuxMsgHdrSize) fs = some q) : SafeLookup mem hdr type := by
  refine @SafeLookup.of_rounds mem hdr type (some q) fs.length (fun fuel => ?_) (fun fuel => ?_) ?_
  · rw [h.run_getTLVAt, hq]
  · rw [h.within_getTLVAt, hq]
    exact fun hnone => absurd hnone (Option.some_ne_none q)
  · intro p hp
    cases hp
    exact h.placeFrom_inside hq

/-- A lookup that finds nothing is safe when the walk ends behind the whole TLVs, -/
theorem Parts.safe_of_short (h : Parts mem hdr fs rest)
    (hnone : placeFrom type 0 (hdr + qcqmuxMsgHdrSize) fs = none)
    (hshort : rest.length < qmiTlvHdrSize) : SafeLookup mem hdr type := by
  refine @SafeLookup.of_rounds mem hdr type none fs.length (fun fuel => ?_) (fun fuel => ?_)
    (fun p hp => nomatch hp)
  · rw [h.run_getTLVAt, hnone, getTLVFrom_short hshort]
    rfl
  · rw [h.within_getTLVAt, getTLVFrom_short hshort]
    exact fun _ => trivial

/-- or when the counter wraps to less than a header. -/
theorem Parts.safe_of_walkEnds (h : Parts mem hdr fs rest)
    (hnone : placeFrom type 0 (hdr + qcqmuxMsgHdrSize) fs = none)
    (hlong : qmiTlvHdrSize ≤ rest.length)
    (hwanted : ¬ Wanted type (fs.length + 1) (Bytes.byteAt rest 0)) (hends : WalkEnds rest) :
    SafeLookup mem hdr type := by
  refine @SafeLookup.of_rounds mem hdr type none fs.length (fun fuel => ?_) (fun fuel => ?_)
    (fun p hp => nomatch hp)
  · rw [h.run_rest hnone hlong hwanted, getTLVFrom_short hends]
    rfl
  · rw [h.within_rest hnone hlong hwanted, getTLVFrom_short hends]
    trivial

/-- A safe lookup that means none of the whole TLVs finds fewer than three bytes left, or passes
over what is left and ends there. -/
theorem Parts.of_safe (h : Parts mem hdr fs rest) (hsafe : SafeLookup mem hdr type)
    (hnone : placeFrom type 0 (hdr + qcqmuxMsgHdrSize) fs = none)
    (hlong : qmiTlvHdrSize ≤ rest.length) :
    ¬ Wanted type (fs.length + 1) (Bytes.byteAt rest 0) ∧ WalkEnds rest := by
  obtain ⟨htype, hn⟩ := h.number16_rest hlong
  have hcut : rest.length < qmiTlvHdrSize + Bytes.le16At rest 1 :=
    h.cut.resolve_left (Nat.not_lt.2 hlong)
  have hlength := h.length
  have hwanted : ¬ Wanted type (fs.length + 1) (Bytes.byteAt rest 0) := by
    -- the TLV that is cut off would be returned
    intro hwanted
    have hfound := hsafe.found (fs.length + 1) (hdr + qcqmuxMsgHdrSize + (encodeAll fs).length) (by
      rw [h.run_getTLVAt, hnone]
      exact run_getTLVFrom_wanted hlong (by rw [htype]; exact hwanted))
    rw [hn] at hfound
    omega
  refine ⟨hwanted, Nat.lt_of_not_le fun hgo => ?_⟩
  -- the next header stands behind the message
  have hbehind : ∀ i, hdr + qcqmuxMsgHdrSize + (encodeAll fs).length + Bytes.le16At rest 1 +
      qmiTlvHdrSize ≤ i → ¬ InMessage mem hdr i := by
    rintro i hi ⟨-, hlt⟩
    omega
  have hinside := hsafe.inside (fs.length + (1 + 1))
  rw [h.within_rest hnone hlong hwanted] at hinside
  by_cases hnext : Wanted type (fs.length + 1 + 1) (mem (hdr + qcqmuxMsgHdrSize +
      (encodeAll fs).length + Bytes.le16At rest 1 + qmiTlvHdrSize))
  · have hfound := hsafe.found (fs.length + (1 + 1)) _ (by
      rw [h.run_rest hnone hlong hwanted]
      exact run_getTLVFrom_wanted hgo hnext)
    omega
  · rw [within_getTLVFrom_next hgo hnext] at hinside
    exact hbehind _ (by omega) hinside.2.1.1

/-- **A lookup on any bytes.** -/
theorem safeLookup_iff (mem : ℕ → UInt8) (hdr : ℕ) (type : ℤ) :
    SafeLookup mem hdr type ↔ LookupClean type (tlvBytes mem hdr) := by
  have h := parts_split mem hdr
  rw [LookupClean]
  generalize (split (tlvBytes mem hdr)).1 = fs at h ⊢
  generalize (split (tlvBytes mem hdr)).2 = rest at h ⊢
  cases hplace : placeFrom type 0 (hdr + qcqmuxMsgHdrSize) fs with
  | some q =>
      obtain ⟨i, hi, -, hwanted⟩ := placeFrom_eq_some hplace
      rw [Nat.zero_add] at hwanted
      exact iff_of_true (h.safe_of_whole hplace) (Or.inl ⟨i, hi, hwanted⟩)
  | none =>
      have hothers : ¬ ∃ (i : ℕ) (h : i < fs.length), Wanted type (i + 1) fs[i].type := by
        rintro ⟨i, hi, hwanted⟩
        have hno := placeFrom_eq_none hplace i hi
        rw [Nat.zero_add] at hno
        exact hno hwanted
      rw [or_iff_right hothers]
      rcases Nat.lt_or_ge rest.length qmiTlvHdrSize with hshort | hlong
      · exact iff_of_true (h.safe_of_short hplace hshort) (Or.inl hshort)
      · rw [or_iff_right (Nat.not_lt.2 hlong)]
        exact ⟨fun hsafe => h.of_safe hsafe hplace hlong,
          fun hends => h.safe_of_walkEnds hplace hlong hends.1 hends.2⟩

end

/-! ### The dump -/

section

variable {mem : ℕ → UInt8} {hdr : ℕ} {fs : List Field} {rest : List UInt8}

/-- The key of the TLV with this index. -/
def keyOf (i : ℕ) : ℤ := 0x1000 + ((i + 1 : ℕ) : ℤ)

theorem wanted_keyOf {i tlvFind : ℕ} (tlvType : UInt8) :
    Wanted (keyOf i) tlvFind tlvType ↔ tlvFind = i + 1 := by
  rw [keyOf, wanted_number (by omega)]
  omega

/-- The lookup of a number comes to an end after as many rounds. -/
theorem getTLVFrom_keyOf_isSome {i fuel tlvFind length p : ℕ} (hi : tlvFind ≤ i)
    (hfuel : i < tlvFind + fuel) :
    (run mem (getTLVFrom (keyOf i) fuel tlvFind length p)).isSome := by
  induction fuel generalizing tlvFind length p with
  | zero => omega
  | succ fuel ih =>
      by_cases hshort : length < qmiTlvHdrSize
      · rw [getTLVFrom_short hshort]
        rfl
      · have hlong := Nat.not_lt.1 hshort
        by_cases hwanted : Wanted (keyOf i) (tlvFind + 1) (mem p)
        · rw [run_getTLVFrom_wanted hlong hwanted]
          rfl
        · have hne : tlvFind + 1 ≠ i + 1 := fun heq => hwanted ((wanted_keyOf _).2 heq)
          rw [run_getTLVFrom_next hlong hwanted]
          exact ih (by omega) (by omega)

/-- A dump ends at a number that is not there. -/
theorem dumpTLVFrom_isSome {lookupFuel fuel i j : ℕ} (hlookup : j < lookupFuel)
    (hj : run mem (getTLVAt lookupFuel hdr (keyOf j)) = some none) (hi : i ≤ j)
    (hfuel : j < i + fuel) :
    (run mem (dumpTLVFrom lookupFuel hdr fuel i)).isSome := by
  induction fuel generalizing i with
  | zero => omega
  | succ fuel ih =>
      rw [dumpTLVFrom, run_bind]
      have hsome : (run mem (getTLVAt lookupFuel hdr (keyOf i))).isSome :=
        getTLVFrom_keyOf_isSome (Nat.zero_le _) (by omega)
      rw [keyOf] at hsome
      obtain ⟨found, hr⟩ := Option.isSome_iff_exists.1 hsome
      rw [hr]
      cases found with
      | none => rfl
      | some p =>
          have hne : i ≠ j := by
            rintro rfl
            rw [keyOf, hr] at hj
            cases hj
          have hrest := ih (show i + 1 ≤ j by omega) (by omega)
          simp only [run_bind, run_pure, Option.isSome_map]
          exact hrest

/-- A dump goes on for ever when every number is there. -/
theorem dumpTLVFrom_eq_none {lookupFuel : ℕ}
    (h : ∀ i, run mem (getTLVAt lookupFuel hdr (keyOf i)) ≠ some none) (fuel i : ℕ) :
    run mem (dumpTLVFrom lookupFuel hdr fuel i) = none := by
  induction fuel generalizing i with
  | zero => rfl
  | succ fuel ih =>
      rw [dumpTLVFrom, run_bind]
      rcases hr : run mem (getTLVAt lookupFuel hdr (0x1000 + ((i + 1 : ℕ) : ℤ))) with _ | _ | p
      · rfl
      · exact absurd hr (h i)
      · simp only [run_bind, run_pure, ih, Option.map_none]

theorem placeFrom_keyOf_eq_none {i p : ℕ} (hi : fs.length ≤ i) :
    placeFrom (keyOf i) 0 p fs = none := by
  rw [keyOf, placeFrom_number (Nat.succ_pos i), if_neg (by omega)]

/-- **The dump ends** when the walk does behind the whole TLVs. -/
theorem Parts.dumpTLV_isSome (h : Parts mem hdr fs rest)
    (hclean : rest.length < qmiTlvHdrSize ∨ WalkEnds rest) :
    (run mem (dumpTLV (fs.length + 2) hdr)).isSome := by
  rcases Nat.lt_or_ge rest.length qmiTlvHdrSize with hshort | hlong
  · refine @dumpTLVFrom_isSome mem hdr _ _ 0 fs.length (by omega) ?_ (by omega) (by omega)
    rw [h.run_getTLVAt, placeFrom_keyOf_eq_none (Nat.le_refl _), getTLVFrom_short hshort]
    rfl
  · refine @dumpTLVFrom_isSome mem hdr _ _ 0 (fs.length + 1) (by omega) ?_ (by omega) (by omega)
    have hends := hclean.resolve_left (Nat.not_lt.2 hlong)
    have hpast : ¬ Wanted (keyOf (fs.length + 1)) (fs.length + 1) (Bytes.byteAt rest 0) := by
      rw [wanted_keyOf]
      omega
    rw [h.run_rest (placeFrom_keyOf_eq_none (by omega)) hlong hpast, getTLVFrom_short hends]
    rfl

/-- The message in front of TLVs of the length 65533, without end. -/
def endless (mem : ℕ → UInt8) (stop next : ℕ) : ℕ → UInt8 := fun i =>
  if i < stop then mem i else if (i - (next + 1)) % 65536 = 0 then 0xFD else 0xFF

theorem number16_endless {stop next : ℕ} (h : stop ≤ next) (j : ℕ) :
    number16 (endless mem stop next) (next + 65536 * j + 1) = 65533 := by
  have hlow : endless mem stop next (next + 65536 * j + 1) = 0xFD := by
    rw [endless, if_neg (by omega), if_pos (by omega)]
  have hhigh : endless mem stop next (next + 65536 * j + 1 + 1) = 0xFF := by
    rw [endless, if_neg (by omega), if_neg (by omega)]
  rw [number16, hlow, hhigh]
  rfl

/-- There the counter does not change. -/
theorem getTLVFrom_endless {stop next : ℕ} (h : stop ≤ next) {type : ℤ} {length : ℕ}
    (hlong : qmiTlvHdrSize ≤ length) (hlt : length < 65536) (fuel tlvFind j : ℕ) :
    run (endless mem stop next) (getTLVFrom type fuel tlvFind length (next + 65536 * j)) ≠
      some none := by
  induction fuel generalizing tlvFind j with
  | zero => simp [getTLVFrom]
  | succ fuel ih =>
      by_cases hwanted : Wanted type (tlvFind + 1) (endless mem stop next (next + 65536 * j))
      · rw [run_getTLVFrom_wanted hlong hwanted]
        simp
      · have hcounter : (length + 65536 * 2 - (65533 + qmiTlvHdrSize)) % 65536 = length := by
          rw [qmiTlvHdrSize]
          omega
        have hplace : next + 65536 * j + 65533 + qmiTlvHdrSize = next + 65536 * (j + 1) := by
          rw [qmiTlvHdrSize]
          omega
        rw [run_getTLVFrom_next hlong hwanted, number16_endless h, hcounter, hplace]
        exact ih (tlvFind + 1) (j + 1)

/-- When the walk does not end behind the whole TLVs, the dump need not end. -/
theorem Parts.dumpTLV_eq_none
    (h : Parts (endless mem (hdr + qcqmuxMsgHdrSize + (encodeAll fs).length + rest.length)
      (hdr + qcqmuxMsgHdrSize + (encodeAll fs).length + Bytes.le16At rest 1 + qmiTlvHdrSize))
      hdr fs rest)
    (hlong : qmiTlvHdrSize ≤ rest.length) (hends : ¬ WalkEnds rest) (fuel : ℕ) :
    run (endless mem (hdr + qcqmuxMsgHdrSize + (encodeAll fs).length + rest.length)
      (hdr + qcqmuxMsgHdrSize + (encodeAll fs).length + Bytes.le16At rest 1 + qmiTlvHdrSize))
      (dumpTLV fuel hdr) = none := by
  have hcut : rest.length < qmiTlvHdrSize + Bytes.le16At rest 1 :=
    h.cut.resolve_left (Nat.not_lt.2 hlong)
  refine dumpTLVFrom_eq_none (fun i hnone => ?_) fuel 0
  -- no number is missing: not among the whole TLVs, not behind them
  have hmore := run_getTLVAt_mono hnone (fs.length + 1)
  have hfuel : fuel + (fs.length + 1) = fs.length + (fuel + 1) := by omega
  rw [hfuel] at hmore
  cases hplace : placeFrom (keyOf i) 0 (hdr + qcqmuxMsgHdrSize) fs with
  | some q =>
      rw [h.run_getTLVAt, hplace] at hmore
      cases hmore
  | none =>
      by_cases hwanted : Wanted (keyOf i) (fs.length + 1) (Bytes.byteAt rest 0)
      · rw [h.run_getTLVAt, hplace] at hmore
        simp only at hmore
        rw [run_getTLVFrom_wanted hlong (by rw [(h.number16_rest hlong).1]; exact hwanted)] at hmore
        cases hmore
      · rw [h.run_rest hplace hlong hwanted] at hmore
        exact getTLVFrom_endless (by omega) (Nat.not_lt.1 hends) (by omega) fuel _ 0 hmore

/-- **The dump of a message**, whatever lies behind it. -/
theorem dumpTLV_terminates_iff (mem : ℕ → UInt8) (hdr : ℕ) :
    (∀ mem' : ℕ → UInt8, (∀ i, i < hdr + qcqmuxMsgHdrSize + number16 mem (hdr + 2) →
        mem' i = mem i) → ∃ fuel, (run mem' (dumpTLV fuel hdr)).isSome) ↔
      DumpClean (tlvBytes mem hdr) := by
  have hsplit := parts_split mem hdr
  have hother : ∀ mem' : ℕ → UInt8, (∀ i, i < hdr + qcqmuxMsgHdrSize + number16 mem (hdr + 2) →
      mem' i = mem i) →
        Parts mem' hdr (split (tlvBytes mem hdr)).1 (split (tlvBytes mem hdr)).2 := by
    intro mem' hsame
    have hlength : number16 mem' (hdr + 2) = number16 mem (hdr + 2) := number16_congr
      fun i _ hi => hsame i (by rw [qcqmuxMsgHdrSize]; omega)
    have hbytes : tlvBytes mem' hdr = tlvBytes mem hdr := by
      rw [tlvBytes, tlvBytes, hlength]
      exact load_congr fun i _ hi => hsame i hi
    have hparts := parts_split mem' hdr
    rwa [hbytes] at hparts
  rw [DumpClean]
  generalize (split (tlvBytes mem hdr)).1 = fs at hsplit hother
  generalize (split (tlvBytes mem hdr)).2 = rest at hsplit hother ⊢
  constructor
  · intro hall
    rcases Nat.lt_or_ge rest.length qmiTlvHdrSize with hshort | hlong
    · exact Or.inl hshort
    · refine Or.inr (Decidable.by_contra fun hends => ?_)
      have hstop : hdr + qcqmuxMsgHdrSize + number16 mem (hdr + 2) =
          hdr + qcqmuxMsgHdrSize + (encodeAll fs).length + rest.length := by
        rw [hsplit.length]
        omega
      have hsame : ∀ i, i < hdr + qcqmuxMsgHdrSize + number16 mem (hdr + 2) →
          endless mem (hdr + qcqmuxMsgHdrSize + (encodeAll fs).length + rest.length)
            (hdr + qcqmuxMsgHdrSize + (encodeAll fs).length + Bytes.le16At rest 1 +
              qmiTlvHdrSize) i = mem i := by
        intro i hi
        rw [endless, if_pos (by omega)]
      obtain ⟨fuel, hfuel⟩ := hall _ hsame
      rw [(hother _ hsame).dumpTLV_eq_none hlong hends fuel] at hfuel
      cases hfuel
  · intro hclean mem' hsame
    exact ⟨_, (hother mem' hsame).dumpTLV_isSome hclean⟩

end

/-- **The exact condition** for the lookups and for the dump. -/
theorem getTLVAt_safe_iff (mem : ℕ → UInt8) (hdr : ℕ) :
    (∀ type : ℤ, SafeLookup mem hdr type ↔ LookupClean type (tlvBytes mem hdr)) ∧
    ((∀ mem' : ℕ → UInt8, (∀ i, i < hdr + qcqmuxMsgHdrSize + number16 mem (hdr + 2) →
        mem' i = mem i) → ∃ fuel, (run mem' (dumpTLV fuel hdr)).isSome) ↔
      DumpClean (tlvBytes mem hdr)) :=
  ⟨safeLookup_iff mem hdr, dumpTLV_terminates_iff mem hdr⟩

/-- A message of three bytes: a TLV that says that five more follow. -/
def overlong : ℕ → UInt8 := store (fun _ => 0) 2 [0x03, 0x00, 0x10, 0x05, 0x00]

theorem not_getTLVAt_safe :
    ¬ ((∀ (mem : ℕ → UInt8) (hdr : ℕ) (type : ℤ), SafeLookup mem hdr type) ∧
      ∀ (mem : ℕ → UInt8) (hdr : ℕ), ∃ fuel, (run mem (dumpTLV fuel hdr)).isSome) := by
  intro hall
  have hfound := (hall.1 overlong 0 0x10).found 1 4 (by decide)
  exact absurd hfound.2 (by decide)

end Qmi

/-
**The identity of the SIM.**

`requestGetICCID` and `requestGetIMSI` ask the modem for the bytes of a file of the SIM and turn
them into text, two characters for each byte.  The number of rounds comes from the response, for the
IMSI even from the file, and neither the buffer of 32 bytes nor the length of the TLV bounds it.

* `QuectelCM.requestGetICCID`, `QuectelCM.requestGetIMSI` — what the functions return, and the text
  that they write;
* `QuectelCM.efImsi` — the record of an IMSI in the file `EF_IMSI`;
* `QuectelCM.run_deviceIMSI_efImsi` — what is read from such a record;
* `QuectelCM.simIdentity_iff` — **when the two stay inside their buffers and the TLV, and when the
  IMSI is the one of the file**.
-/
import OpenwrtPackage.Qmi.TlvWalk

set_option relaxedAutoImplicit false
set_option autoImplicit false

namespace QuectelCM

open Reads Memory Qmi

/-! ### The requests -/

/-- `qmi_rsp_check_and_return` on a response in the memory: the error, when there is one. -/
def rspCheckIn : Reads UInt8 (Option ℤ) := do
  let qmuxResult ← le16 16
  let qmuxError ← le16 18
  pure (if qmuxResult ≠ 0 ∨ qmuxError ≠ 0 then some (qmuxError : ℤ) else none)

/-- `content` in a `QMIUIM_CONTENT`, behind the header of the TLV and `content_len`. -/
def contentAt : ℕ := qmiTlvHdrSize + 2

/-- The characters of `charmaps`. -/
def charmaps (i : UInt8) : UInt8 :=
  UInt8.ofNat (("0123456789ABCDEF".toList.getD i.toNat '0').toNat)

/-- A loop over `n` bytes from number `i` on; the characters that are written. -/
def decodeLoop (decode : ℕ → UInt8 → List UInt8) (content : ℕ) : ℕ → ℕ → Reads UInt8 (List UInt8)
  | 0, _ => pure []
  | n + 1, i => do
      let b ← byte (content + i)
      let rest ← decodeLoop decode content n (i + 1)
      pure (decode i b ++ rest)

/-- What is written to `DeviceICCID` in front of the terminator. -/
def deviceICCID (pUimContent : ℕ) : Reads UInt8 (List UInt8) := do
  let contentLen ← le16 (pUimContent + qmiTlvHdrSize)
  decodeLoop (fun _ b => [charmaps (b &&& 0x0F), charmaps ((b &&& 0xF0) >>> 4)])
    (pUimContent + contentAt) contentLen 0

/-- What is written to `DeviceIMSI` in front of the terminator.  Of the first byte only the high
half is a digit. -/
def deviceIMSI (pUimContent : ℕ) : Reads UInt8 (List UInt8) := do
  let length ← byte (pUimContent + contentAt)
  decodeLoop
    (fun i b => (if i ≠ 0 then [(b &&& 0x0F) + 48] else []) ++ [((b &&& 0xF0) >>> 4) + 48])
    (pUimContent + contentAt + 1) length.toNat 0

/-- The two requests: the result and the text, if there is one.  Without a result the lookup of the
TLV is still under way. -/
def requestUimContent (decode : ℕ → Reads UInt8 (List UInt8)) (s9x07 : Bool) (err : ℤ)
    (responded : Bool) (fuel : ℕ) : Reads UInt8 (Option (ℤ × Option (List UInt8))) :=
  if s9x07 = false then pure (some (0, none))
  else if err < 0 ∨ responded = false then pure (some (err, none))
  else do
    let failed ← rspCheckIn
    match failed with
    | some qmuxError => pure (some (qmuxError, none))
    | none => do
        let pUimContent ← getTLVAt fuel 9 0x11
        match pUimContent with
        | none => pure none
        | some none => pure (some (0, none))
        | some (some p) => do
            let text ← decode p
            pure (some (0, some text))

/-- `requestGetICCID` -/
def requestGetICCID (s9x07 : Bool) (err : ℤ) (responded : Bool) (fuel : ℕ) :
    Reads UInt8 (Option (ℤ × Option (List UInt8))) :=
  requestUimContent deviceICCID s9x07 err responded fuel

/-- `requestGetIMSI` -/
def requestGetIMSI (s9x07 : Bool) (err : ℤ) (responded : Bool) (fuel : ℕ) :
    Reads UInt8 (Option (ℤ × Option (List UInt8))) :=
  requestUimContent deviceIMSI s9x07 err responded fuel

/-- `sizeof(DeviceICCID)`, `sizeof(DeviceIMSI)` -/
def deviceBufferSize : ℕ := 32

/-! ### The file -/

/-- The character of a digit. -/
def digitChar (d : Fin 10) : UInt8 := UInt8.ofNat d + 48

/-- Two digits in a byte, the first one in the low half; the half that is left over is `0xF`. -/
def swapped : List (Fin 10) → List UInt8
  | [] => []
  | [d] => [UInt8.ofNat d + 0xF0]
  | d :: e :: ds => (UInt8.ofNat d + 16 * UInt8.ofNat e) :: swapped ds

/-- The record of an IMSI: the number of bytes, then the parity and the first digit, then the other
digits two by two. -/
def efImsi : List (Fin 10) → List UInt8
  | [] => [0]
  | d :: ds =>
      UInt8.ofNat (1 + (ds.length + 1) / 2) ::
        ((if ds.length % 2 = 0 then 9 else 1) + 16 * UInt8.ofNat d) :: swapped ds

/-! ### The loops -/

section

variable {mem : ℕ → UInt8} {P : ℕ → Prop}

theorem within_decodeLoop (decode : ℕ → UInt8 → List UInt8) (content n i : ℕ) :
    Within P mem (decodeLoop decode content n i) ↔ ∀ k, i ≤ k → k < i + n → P (content + k) := by
  induction n generalizing i with
  | zero => exact ⟨fun _ k hk hlt => absurd hlt (by omega), fun _ => trivial⟩
  | succ n ih =>
      rw [decodeLoop, within_bind, within_byte, within_bind, ih]
      constructor
      · rintro ⟨hhere, hrest, -⟩ k hk hlt
        rcases Nat.eq_or_lt_of_le hk with rfl | hk
        · exact hhere
        · exact hrest k hk (by omega)
      · intro h
        exact ⟨h i (Nat.le_refl _) (by omega), fun k hk hlt => h k (by omega) (by omega), trivial⟩

theorem run_decodeLoop_succ (decode : ℕ → UInt8 → List UInt8) (content n i : ℕ) :
    run mem (decodeLoop decode content (n + 1) i) =
      decode i (mem (content + i)) ++ run mem (decodeLoop decode content n (i + 1)) := by
  rw [decodeLoop, run_bind, run_byte, run_bind, run_pure]

/-- Every byte gives as many characters. -/
theorem length_run_decodeLoop {decode : ℕ → UInt8 → List UInt8} {c i : ℕ}
    (h : ∀ k b, i ≤ k → (decode k b).length = c) (content n : ℕ) :
    (run mem (decodeLoop decode content n i)).length = c * n := by
  induction n generalizing i with
  | zero => rfl
  | succ n ih =>
      rw [run_decodeLoop_succ, List.length_append, h i _ (Nat.le_refl i),
        ih fun k b hk => h k b (by omega), Nat.mul_succ, Nat.add_comm]

/-! ### The two texts -/

theorem length_run_deviceICCID (p : ℕ) :
    (run mem (deviceICCID p)).length = 2 * number16 mem (p + qmiTlvHdrSize) := by
  rw [deviceICCID, run_bind, run_le16]
  exact @length_run_decodeLoop mem _ 2 0 (fun _ _ _ => rfl) _ _

/-- The first byte gives one character, the others give two. -/
theorem length_run_deviceIMSI (p : ℕ) :
    (run mem (deviceIMSI p)).length = 2 * (mem (p + contentAt)).toNat - 1 := by
  rw [deviceIMSI, run_bind, run_byte]
  cases (mem (p + contentAt)).toNat with
  | zero => rfl
  | succ n =>
      rw [run_decodeLoop_succ, List.length_append,
        @length_run_decodeLoop mem _ 2 1 (fun k b hk => by rw [if_pos (by omega)]; rfl)]
      simp only [ne_eq, not_true_eq_false, if_false, List.nil_append, List.length_singleton]
      omega

/-- The bytes of the TLV. -/
def InTlv (mem : ℕ → UInt8) (p i : ℕ) : Prop :=
  p ≤ i ∧ i < p + qmiTlvHdrSize + number16 mem (p + 1)

theorem within_deviceICCID (p : ℕ) :
    Within (InTlv mem p) mem (deviceICCID p) ↔
      2 + number16 mem (p + qmiTlvHdrSize) ≤ number16 mem (p + 1) := by
  rw [deviceICCID, within_bind, within_le16, run_le16, within_decodeLoop]
  simp only [InTlv, contentAt, qmiTlvHdrSize]
  constructor
  · rintro ⟨⟨-, hlen⟩, hcontent⟩
    rcases Nat.eq_zero_or_pos (number16 mem (p + 3)) with hzero | hpos
    · omega
    · have hlast := hcontent (number16 mem (p + 3) - 1) (Nat.zero_le _) (by omega)
      omega
  · intro h
    exact ⟨⟨⟨by omega, by omega⟩, ⟨by omega, by omega⟩⟩, fun k _ hk => ⟨by omega, by omega⟩⟩

theorem within_deviceIMSI (p : ℕ) :
    Within (InTlv mem p) mem (deviceIMSI p) ↔
      3 + (mem (p + contentAt)).toNat ≤ number16 mem (p + 1) := by
  rw [deviceIMSI, within_bind, within_byte, run_byte, within_decodeLoop]
  simp only [InTlv, contentAt, qmiTlvHdrSize]
  constructor
  · rintro ⟨hlen, hcontent⟩
    rcases Nat.eq_zero_or_pos (mem (p + (3 + 2))).toNat with hzero | hpos
    · omega
    · have hlast := hcontent ((mem (p + (3 + 2))).toNat - 1) (Nat.zero_le _) (by omega)
      omega
  · intro h
    exact ⟨⟨by omega, by omega⟩, fun k _ hk => ⟨by omega, by omega⟩⟩

/-! ### The digits -/

theorem first_digit (d : Fin 10) (low : UInt8) (hlow : low = 9 ∨ low = 1) :
    (((low + 16 * UInt8.ofNat d) &&& 0xF0) >>> 4) + 48 = digitChar d := by
  rcases hlow with rfl | rfl
  · revert d
    decide
  · revert d
    decide

theorem two_digits (d e : Fin 10) :
    [((UInt8.ofNat d + 16 * UInt8.ofNat e) &&& 0x0F) + 48,
      (((UInt8.ofNat d + 16 * UInt8.ofNat e) &&& 0xF0) >>> 4) + 48] =
        [digitChar d, digitChar e] := by
  revert d e
  decide

/-- The half that is left over becomes a question mark. -/
theorem last_digit (d : Fin 10) :
    [((UInt8.ofNat d + 0xF0) &&& 0x0F) + 48, (((UInt8.ofNat d + 0xF0) &&& 0xF0) >>> 4) + 48] =
      [digitChar d, 63] := by
  revert d
  decide

theorem length_swapped (ds : List (Fin 10)) : (swapped ds).length = (ds.length + 1) / 2 := by
  induction ds using swapped.induct with
  | case1 => rfl
  | case2 d => simp [swapped]
  | case3 d e ds ih =>
      simp only [swapped, List.length_cons, ih]
      omega

/-- The loop over the bytes behind the first one. -/
theorem run_decodeLoop_swapped {ds : List (Fin 10)} {content i : ℕ} (hi : 0 < i)
    (h : Holds mem (content + i) (swapped ds)) :
    run mem (decodeLoop
        (fun i b => (if i ≠ 0 then [(b &&& 0x0F) + 48] else []) ++ [((b &&& 0xF0) >>> 4) + 48])
        content (swapped ds).length i) =
      ds.map digitChar ++ (if ds.length % 2 = 0 then [] else [63]) := by
  induction ds using swapped.induct generalizing i with
  | case1 => rfl
  | case2 d =>
      rw [swapped, holds_cons] at h
      simp only [swapped, List.length_singleton]
      rw [run_decodeLoop_succ, if_pos (Nat.ne_of_gt hi), h.1, List.singleton_append, last_digit]
      rfl
  | case3 d e ds ih =>
      rw [swapped, holds_cons] at h
      have hfiller : (if (d :: e :: ds).length % 2 = 0 then ([] : List UInt8) else [63]) =
          if ds.length % 2 = 0 then [] else [63] :=
        if_congr (by simp only [List.length_cons]; omega) rfl rfl
      rw [hfiller, swapped, List.length_cons, run_decodeLoop_succ, if_pos (Nat.ne_of_gt hi), h.1,
        List.singleton_append, two_digits, ih (Nat.succ_pos i) h.2]
      rfl

/-- **What is read from the record of an IMSI**: its digits, and a question mark behind an even
number of them. -/
theorem run_deviceIMSI_efImsi {p : ℕ} {ds : List (Fin 10)} (hpos : 1 ≤ ds.length)
    (hlen : ds.length < 510) (h : Holds mem (p + contentAt) (efImsi ds)) :
    run mem (deviceIMSI p) =
      ds.map digitChar ++ (if ds.length % 2 = 1 then [] else [63]) := by
  cases ds with
  | nil => exact absurd hpos (by decide)
  | cons d ds =>
      rw [List.length_cons] at hlen
      rw [efImsi, holds_cons, holds_cons] at h
      obtain ⟨hlength, hfirst, hrest⟩ := h
      have hbytes : (mem (p + contentAt)).toNat = (swapped ds).length + 1 := by
        rw [hlength, length_swapped, UInt8.toNat_ofNat']
        omega
      have hparity : (if ds.length % 2 = 0 then ([] : List UInt8) else [63]) =
          if (d :: ds).length % 2 = 1 then [] else [63] := by
        rw [List.length_cons]
        by_cases heven : ds.length % 2 = 0
        · rw [if_pos heven, if_pos (by omega)]
        · rw [if_neg heven, if_neg (by omega)]
      rw [deviceIMSI, run_bind, run_byte, hbytes, run_decodeLoop_succ, Nat.add_zero, hfirst,
        run_decodeLoop_swapped (Nat.succ_pos 0) hrest, hparity, first_digit d _ (by
          by_cases heven : ds.length % 2 = 0
          · exact Or.inl (if_pos heven)
          · exact Or.inr (if_neg heven))]
      rfl

/-! ### The requests -/

theorem run_requestUimContent {fuel p : ℕ} (decode : ℕ → Reads UInt8 (List UInt8))
    (hok : run mem rspCheckIn = none) (hp : run mem (getTLVAt fuel 9 0x11) = some (some p)) :
    run mem (requestUimContent decode true 0 true fuel) = some (0, some (run mem (decode p))) := by
  rw [requestUimContent, if_neg (by decide), if_neg (by decide), run_bind, hok]
  simp only
  rw [run_bind, hp]
  simp only [run_bind, run_pure]

/-- **When the two stay inside their buffers and the TLV, and when the IMSI is the one of the
file**: the ICCID has at most 15 bytes, which the TLV holds; the length in the IMSI is at most 16,
and the TLV holds as many bytes; and the number of digits is odd. -/
theorem simIdentity_iff {fuel p : ℕ} (hok : run mem rspCheckIn = none)
    (hp : run mem (getTLVAt fuel 9 0x11) = some (some p)) :
    ((∃ text, run mem (requestGetICCID true 0 true fuel) = some (0, some text) ∧
        text.length + 1 ≤ deviceBufferSize ∧ Within (InTlv mem p) mem (deviceICCID p)) ↔
      number16 mem (p + qmiTlvHdrSize) ≤ 15 ∧
        2 + number16 mem (p + qmiTlvHdrSize) ≤ number16 mem (p + 1)) ∧
    ((∃ text, run mem (requestGetIMSI true 0 true fuel) = some (0, some text) ∧
        text.length + 1 ≤ deviceBufferSize ∧ Within (InTlv mem p) mem (deviceIMSI p)) ↔
      (mem (p + contentAt)).toNat ≤ 16 ∧
        3 + (mem (p + contentAt)).toNat ≤ number16 mem (p + 1)) ∧
    ∀ ds : List (Fin 10), 6 ≤ ds.length → ds.length ≤ 15 →
      Holds mem (p + contentAt) (efImsi ds) →
        (run mem (requestGetIMSI true 0 true fuel) = some (0, some (ds.map digitChar)) ↔
          ds.length % 2 = 1) := by
  have hiccid := run_requestUimContent deviceICCID hok hp
  have himsi := run_requestUimContent deviceIMSI hok hp
  refine ⟨?_, ?_, fun ds hsix hfifteen hfile => ?_⟩
  · rw [requestGetICCID, hiccid, within_deviceICCID, deviceBufferSize]
    have hlen := @length_run_deviceICCID mem p
    constructor
    · rintro ⟨text, htext, hsize, hin⟩
      cases htext
      exact ⟨by omega, hin⟩
    · rintro ⟨hsize, hin⟩
      exact ⟨_, rfl, by omega, hin⟩
  · rw [requestGetIMSI, himsi, within_deviceIMSI, deviceBufferSize]
    have hlen := @length_run_deviceIMSI mem p
    constructor
    · rintro ⟨text, htext, hsize, hin⟩
      cases htext
      exact ⟨by omega, hin⟩
    · rintro ⟨hsize, hin⟩
      exact ⟨_, rfl, by omega, hin⟩
  · rw [requestGetIMSI, himsi, run_deviceIMSI_efImsi (by omega) (by omega) hfile]
    by_cases hodd : ds.length % 2 = 1
    · rw [if_pos hodd, List.append_nil]
      exact iff_of_true rfl hodd
    · rw [if_neg hodd]
      refine iff_of_false (fun heq => ?_) hodd
      simp only [Option.some.injEq, Prod.mk.injEq, true_and] at heq
      have hlen := congrArg List.length heq
      simp at hlen

end

/-- A response with this record in its TLV `0x11`. -/
def imsiResponse (file : List UInt8) : ℕ → UInt8 :=
  store (fun _ => 0) 11 (Bytes.le16 (12 + file.length) ++ Tlv.encodeAll
    [⟨0x02, [0, 0, 0, 0]⟩, ⟨0x11, Bytes.le16 file.length ++ file⟩])

theorem simIdentity_iff_fifteen :
    run (imsiResponse (efImsi [3, 1, 0, 2, 6, 0, 1, 2, 3, 4, 5, 6, 7, 8, 9]))
        (requestGetIMSI true 0 true 2) =
      some (0, some ([3, 1, 0, 2, 6, 0, 1, 2, 3, 4, 5, 6, 7, 8, 9].map digitChar)) :=
  ((@simIdentity_iff (imsiResponse (efImsi [3, 1, 0, 2, 6, 0, 1, 2, 3, 4, 5, 6, 7, 8, 9])) 2 20
    (by decide +kernel) (by decide +kernel)).2.2 _ (by decide) (by decide)
    (by unfold Holds; decide +kernel)).2 (by decide)

/-- Of the fourteen digits of an IMSI fifteen characters are read. -/
theorem not_simIdentity :
    ¬ ∀ (mem : ℕ → UInt8) (fuel p : ℕ), run mem rspCheckIn = none →
      run mem (getTLVAt fuel 9 0x11) = some (some p) →
        ∀ ds : List (Fin 10), 6 ≤ ds.length → ds.length ≤ 15 →
          Holds mem (p + contentAt) (efImsi ds) →
            run mem (requestGetIMSI true 0 true fuel) = some (0, some (ds.map digitChar)) := by
  intro hall
  have h := hall (imsiResponse (efImsi [2, 6, 2, 0, 1, 1, 2, 3, 4, 5, 6, 7, 8, 9])) 2 20
    (by decide +kernel) (by decide +kernel) [2, 6, 2, 0, 1, 1, 2, 3, 4, 5, 6, 7, 8, 9]
    (by decide) (by decide) (by unfold Holds; decide +kernel)
  revert h
  decide +kernel

end QuectelCM

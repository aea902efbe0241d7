/-
**Requests as bytes.**

`ComposeQMUXMsg` puts a request together in a buffer on the stack, and one function for each kind of
request writes its TLVs behind the header, through a pointer that goes on by the size of each.  A
string is copied with its NUL, one byte further than its TLV.  The two length fields are written at
last, and the message is copied out by the second one.

* `QuectelCM.appendByte`, `QuectelCM.appendString` — one TLV, and `TLVLength` after it;
* `QuectelCM.composeQMUXMsg` — `ComposeQMUXMsg`;
* `QuectelCM.wdsStartNwInterfaceReq`, `QuectelCM.wdsModifyProfileSettingsReq`;
* `QuectelCM.Written` — the TLVs that have been written so far lie one behind the other;
* `QuectelCM.startFields`, `QuectelCM.modifyFields` — the TLVs of the two requests;
* `QuectelCM.composeQMUXMsg_eq` — **the bytes of a request that fits the buffer**.

The buffer begins at address 0.  What lies behind it is whatever the stack holds.
-/
import Mathlib.Logic.Function.Basic
import OpenwrtPackage.Lib.Memory
import OpenwrtPackage.Qmi.Fields
import OpenwrtPackage.QuectelCM.Profile

set_option relaxedAutoImplicit false
set_option autoImplicit false

namespace QuectelCM

open Qmi Bytes Memory Tlv

/-! ### Constants -/

/-- `WDM_DEFAULT_BUFSIZE` -/
def wdmDefaultBufsize : ℕ := 256

def qmiwdsStartNetworkInterfaceReq : ℕ := 0x0020

def qmiwdsModifyProfileSettingsReq : ℕ := 0x0028

/-- `sizeof(QMIWDS_START_NETWORK_INTERFACE_REQ_MSG)` -/
def startReqSize : ℕ := 4

/-- `sizeof(QMIWDS_MODIFY_PROFILE_SETTINGS_REQ_MSG)` -/
def modifyReqSize : ℕ := 9

/-! ### One TLV -/

/-- The memory, and `TLVLength`, which has 16 bits. -/
abbrev Tlvs := (ℕ → UInt8) × ℕ

/-- A TLV whose value has one byte is written at `pTLV + TLVLength`. -/
def appendByte (pTLV : ℕ) (type value : UInt8) (t : Tlvs) : Tlvs :=
  (store t.1 (pTLV + t.2) (type :: le16 1 ++ [value]), (t.2 + (1 + qmiTlvHdrSize)) % 65536)

/-- A TLV whose value is a string; `qstrcpy` copies its NUL too. -/
def appendString (pTLV : ℕ) (type : UInt8) (s : CStr) (t : Tlvs) : Tlvs :=
  (store t.1 (pTLV + t.2) (type :: le16 s.1.length ++ s.1 ++ [0]),
    (t.2 + (s.1.length % 65536 + qmiTlvHdrSize)) % 65536)

/-- The same when there is a string. -/
def appendOption (pTLV : ℕ) (type : UInt8) (s : Option CStr) (t : Tlvs) : Tlvs :=
  match s with
  | some s => appendString pTLV type s t
  | none => t

/-! ### The request -/

/-- A number of 16 bits in the memory. -/
def le16In (mem : ℕ → UInt8) (p : ℕ) : ℕ := le16At (load mem p 2) 0

/-- `ComposeQMUXMsg`, when `malloc` has memory for the message.  `transactionId` is what
`GetQMUXTransactionId` returns; `custom` writes the TLVs and returns their size with the size of the
message header. -/
def composeQMUXMsg (qmiType : UInt8) (type : ℕ) (custom : Option ((ℕ → UInt8) → Tlvs))
    (transactionId : ℕ) (stack : ℕ → UInt8) : List UInt8 :=
  let mem := fun i => if i < wdmDefaultBufsize then 0 else stack i
  let mem := store mem 0 [usbCtlMsgTypeQmi]
  let mem := store mem 3 [0x00, qmiType]
  let mem := store mem 6 ((qmuxCtlFlagSingleMsg ||| qmuxCtlFlagTypeCmd) :: le16 transactionId)
  let mem := store mem 9 (le16 type)
  let mem :=
    match custom with
    | some custom => store (custom mem).1 11 (le16 ((custom mem).2 + 65536 - qcqmuxMsgHdrSize))
    | none => store mem 11 (le16 0)
  let mem := store mem 1
    (le16 (le16In mem 11 + qcqmuxMsgHdrSize + qcqmuxHdrSize + qcqmiHdrSize - 1))
  load mem 0 (le16In mem 1 + 1)

/-- A string of ASCII characters. -/
def ascii (s : String) : List UInt8 := s.toList.map fun c => UInt8.ofNat c.toNat

/-- `user == NULL || user[0] == '\0'` -/
def blank (s : Option CStr) : Prop := ∀ t ∈ s, t.1 = []

instance (s : Option CStr) : Decidable (blank s) := inferInstanceAs (Decidable (∀ t ∈ s, _))

/-- The default credentials of CDMA are used. -/
def DefaultCredentials (sIsCdma : ℤ) (profile : Profile) : Prop :=
  sIsCdma ≠ 0 ∧ blank profile.user ∧ blank profile.password

instance (sIsCdma : ℤ) (profile : Profile) : Decidable (DefaultCredentials sIsCdma profile) :=
  inferInstanceAs (Decidable (_ ∧ _ ∧ _))

/-- `profile_user` -/
def profileUser (sIsCdma : ℤ) (profile : Profile) : Option CStr :=
  if DefaultCredentials sIsCdma profile then some ⟨ascii "ctnet@mycdma.cn", by decide⟩
  else profile.user

/-- `profile_password` -/
def profilePassword (sIsCdma : ℤ) (profile : Profile) : Option CStr :=
  if DefaultCredentials sIsCdma profile then some ⟨ascii "vnet.mobi", by decide⟩
  else profile.password

/-- `profile_auth` -/
def profileAuth (sIsCdma : ℤ) (profile : Profile) : ℤ :=
  if DefaultCredentials sIsCdma profile then 2 else profile.auth

/-- `WdsStartNwInterfaceReq` -/
def wdsStartNwInterfaceReq (sIsCdma sHdrPersonality : ℤ) (profile : Profile) (mem : ℕ → UInt8) :
    Tlvs :=
  let user := profileUser sIsCdma profile
  let password := profilePassword sIsCdma profile
  let pTLV := firstTLV
  let t : Tlvs := (store mem 11 (le16 0), 0)
  let t := appendByte pTLV 0x30 (if sIsCdma = 0 then 0x01 else 0x02) t
  let t := if sIsCdma = 0 then appendOption pTLV 0x14 profile.apn t else t
  let t := appendOption pTLV 0x17 user t
  let t := appendOption pTLV 0x18 password t
  let t :=
    if user ≠ none ∧ password ≠ none then
      appendByte pTLV 0x16 (uchar (profileAuth sIsCdma profile)) t
    else t
  let t := appendByte pTLV 0x19 (uchar profile.curIpFamily) t
  let t :=
    if profile.pdp ≠ 0 ∧ sIsCdma = 0 then
      if sIsCdma ≠ 0 ∧ sHdrPersonality = 0x02 then appendByte pTLV 0x32 101 t
      else appendByte pTLV 0x31 (uchar profile.pdp) t
    else t
  (t.1, (startReqSize + t.2) % 65536)

/-- `WdsModifyProfileSettingsReq` -/
def wdsModifyProfileSettingsReq (profile : Profile) (mem : ℕ → UInt8) : Tlvs :=
  let mem := store mem 11 (le16 (modifyReqSize - 4))
  let mem := store mem 13 (0x01 :: le16 2 ++ [0x00, uchar profile.pdp])
  let pTLV := firstTLV + 5
  let t : Tlvs := (mem, 0)
  let t := appendByte pTLV 0x11 (uchar profile.iptype) t
  let t := appendOption pTLV 0x14 profile.apn t
  let t := appendOption pTLV 0x1B profile.user t
  let t := appendOption pTLV 0x1C profile.password t
  let t :=
    if profile.user ≠ none ∧ profile.password ≠ none then
      appendByte pTLV 0x1D (uchar profile.auth) t
    else t
  (t.1, (modifyReqSize + t.2) % 65536)

/-! ### The TLVs of a request -/

/-- A TLV with a string, when there is one. -/
def stringField (type : UInt8) (s : Option CStr) : List Field :=
  match s with
  | some s => [⟨type, s.1⟩]
  | none => []

/-- What `QMIWDS_START_NETWORK_INTERFACE` says. -/
def startFields (sIsCdma : ℤ) (profile : Profile) : List Field :=
  let user := profileUser sIsCdma profile
  let password := profilePassword sIsCdma profile
  [⟨0x30, [if sIsCdma = 0 then 0x01 else 0x02]⟩] ++
    (if sIsCdma = 0 then stringField 0x14 profile.apn else []) ++
    stringField 0x17 user ++ stringField 0x18 password ++
    (if user ≠ none ∧ password ≠ none then [⟨0x16, [uchar (profileAuth sIsCdma profile)]⟩]
      else []) ++
    [⟨0x19, [uchar profile.curIpFamily]⟩] ++
    if profile.pdp ≠ 0 ∧ sIsCdma = 0 then [⟨0x31, [uchar profile.pdp]⟩] else []

/-- What `QMIWDS_MODIFY_PROFILE_SETTINGS` says behind the index of the profile. -/
def settingFields (profile : Profile) : List Field :=
  [⟨0x11, [uchar profile.iptype]⟩] ++ stringField 0x14 profile.apn ++
    stringField 0x1B profile.user ++ stringField 0x1C profile.password ++
    if profile.user ≠ none ∧ profile.password ≠ none then [⟨0x1D, [uchar profile.auth]⟩] else []

def modifyFields (profile : Profile) : List Field :=
  ⟨0x01, [0x00, uchar profile.pdp]⟩ :: settingFields profile

/-- A message with these TLVs fits the buffer. -/
def FitsBuffer (fs : List Field) : Prop := firstTLV + (encodeAll fs).length ≤ wdmDefaultBufsize

instance (fs : List Field) : Decidable (FitsBuffer fs) := inferInstanceAs (Decidable (_ ≤ _))

/-- A request with its header, whose lengths are right. -/
def qmuxMessage (qmiType : UInt8) (type transactionId : ℕ) (fs : List Field) : List UInt8 :=
  usbCtlMsgTypeQmi :: le16 ((encodeAll fs).length + 12) ++ [0x00, qmiType, 0x00] ++
    [qmuxCtlFlagSingleMsg ||| qmuxCtlFlagTypeCmd] ++ le16 transactionId ++ le16 type ++
    le16 (encodeAll fs).length ++ encodeAll fs

/-! ### TLV by TLV -/

/-- The TLVs `fs` lie one behind the other from `pTLV` on, and what is in front of them is as in
`mem`. -/
structure Written (pTLV : ℕ) (mem : ℕ → UInt8) (fs : List Field) (t : Tlvs) : Prop where
  frame : ∀ i < pTLV, t.1 i = mem i
  length : (encodeAll fs).length < 65536 → t.2 = (encodeAll fs).length
  bytes : (encodeAll fs).length < 65536 →
    load t.1 pTLV (encodeAll fs).length = encodeAll fs

section

variable {pTLV : ℕ} {mem : ℕ → UInt8} {fs : List Field} {t : Tlvs}

theorem written_nil (pTLV : ℕ) (mem : ℕ → UInt8) : Written pTLV mem [] (mem, 0) :=
  ⟨fun _ _ => rfl, fun _ => rfl, fun _ => rfl⟩

/-- One more TLV is written behind the others, and perhaps bytes that the next one covers. -/
theorem Written.append (h : Written pTLV mem fs t) (f : Field) (behind : List UInt8) {size : ℕ}
    (hsize : f.Fits → size = f.size) :
    Written pTLV mem (fs ++ [f])
      (store t.1 (pTLV + t.2) (encode f ++ behind), (t.2 + size) % 65536) := by
  have hlen : (encodeAll (fs ++ [f])).length = (encodeAll fs).length + f.size := by simp
  have hfits : (encodeAll (fs ++ [f])).length < 65536 → f.Fits := fun hlt =>
    fits_of_encodeAll_lt hlt f (by simp)
  refine ⟨fun i hi => ?_, fun hlt => ?_, fun hlt => ?_⟩
  · exact (store_of_lt _ _ (by omega)).trans (h.frame i hi)
  · dsimp only
    rw [hsize (hfits hlt), h.length (by omega), hlen]
    omega
  · have hprev : (encodeAll fs).length < 65536 := by omega
    rw [hlen, load_append, h.length hprev, load_store_of_le _ _ (by omega), h.bytes hprev,
      ← encode_length f, load_store_append]
    simp

theorem Written.appendByte (h : Written pTLV mem fs t) (type value : UInt8) :
    Written pTLV mem (fs ++ [⟨type, [value]⟩]) (appendByte pTLV type value t) := by
  have happend := h.append ⟨type, [value]⟩ [] (fun _ => (rfl : 1 + qmiTlvHdrSize = _))
  rw [List.append_nil] at happend
  exact happend

theorem Written.appendString (h : Written pTLV mem fs t) (type : UInt8) (s : CStr) :
    Written pTLV mem (fs ++ [⟨type, s.1⟩]) (appendString pTLV type s t) := by
  refine h.append ⟨type, s.1⟩ [0] fun hfits => ?_
  have hmod : s.1.length % 65536 = s.1.length := Nat.mod_eq_of_lt hfits
  rw [hmod, Nat.add_comm]
  rfl

theorem Written.appendOption (h : Written pTLV mem fs t) (type : UInt8) (s : Option CStr) :
    Written pTLV mem (fs ++ stringField type s) (appendOption pTLV type s t) := by
  cases s with
  | none => simpa [stringField, QuectelCM.appendOption] using h
  | some s => exact h.appendString type s

/-- TLVs that are written only sometimes. -/
theorem Written.ite {p : Prop} [Decidable p] {gs : List Field} {t' : Tlvs}
    (h : Written pTLV mem fs t) (h' : p → Written pTLV mem (fs ++ gs) t') :
    Written pTLV mem (fs ++ if p then gs else []) (if p then t' else t) := by
  split
  · rename_i hp
    exact h' hp
  · simpa using h

end

theorem written_start (sIsCdma sHdrPersonality : ℤ) (profile : Profile) (mem : ℕ → UInt8) :
    ∃ t, wdsStartNwInterfaceReq sIsCdma sHdrPersonality profile mem =
        (t.1, (startReqSize + t.2) % 65536) ∧
      Written firstTLV (store mem 11 (le16 0)) (startFields sIsCdma profile) t := by
  refine ⟨_, rfl, ?_⟩
  have h := (written_nil firstTLV (store mem 11 (le16 0))).appendByte 0x30
    (if sIsCdma = 0 then 0x01 else 0x02)
  have happn := h.ite fun (_ : sIsCdma = 0) => h.appendOption 0x14 profile.apn
  have hpassword := (happn.appendOption 0x17 (profileUser sIsCdma profile)).appendOption 0x18
    (profilePassword sIsCdma profile)
  have hauth := hpassword.ite
    fun (_ : profileUser sIsCdma profile ≠ none ∧ profilePassword sIsCdma profile ≠ none) =>
      hpassword.appendByte 0x16 (uchar (profileAuth sIsCdma profile))
  have hfamily := hauth.appendByte 0x19 (uchar profile.curIpFamily)
  refine hfamily.ite fun hpdp => ?_
  have hgsm : ¬ (sIsCdma ≠ 0 ∧ sHdrPersonality = 0x02) := fun hc => hc.1 hpdp.2
  rw [if_neg hgsm]
  exact hfamily.appendByte 0x31 (uchar profile.pdp)

theorem written_modify (profile : Profile) (mem : ℕ → UInt8) :
    ∃ t, wdsModifyProfileSettingsReq profile mem = (t.1, (modifyReqSize + t.2) % 65536) ∧
      Written (firstTLV + 5)
        (store (store mem 11 (le16 (modifyReqSize - 4))) 13
          (0x01 :: le16 2 ++ [0x00, uchar profile.pdp]))
        (settingFields profile) t := by
  refine ⟨_, rfl, ?_⟩
  have h := (written_nil (firstTLV + 5)
    (store (store mem 11 (le16 (modifyReqSize - 4))) 13
      (0x01 :: le16 2 ++ [0x00, uchar profile.pdp]))).appendByte 0x11 (uchar profile.iptype)
  have hpassword := ((h.appendOption 0x14 profile.apn).appendOption 0x1B
    profile.user).appendOption 0x1C profile.password
  exact hpassword.ite fun _ => hpassword.appendByte 0x1D (uchar profile.auth)

/-! ### The whole request -/

/-- What a function for the TLVs of a request does: it leaves the header but for the length alone,
and returns the size of the TLVs with that of the message header. -/
structure Writes (custom : (ℕ → UInt8) → Tlvs) (fs : List Field) : Prop where
  frame : ∀ mem, ∀ i < 11, (custom mem).1 i = mem i
  size : ∀ mem, (custom mem).2 = qcqmuxMsgHdrSize + (encodeAll fs).length
  bytes : ∀ mem, load (custom mem).1 firstTLV (encodeAll fs).length = encodeAll fs

theorem writes_start (sIsCdma sHdrPersonality : ℤ) {profile : Profile}
    (hfits : FitsBuffer (startFields sIsCdma profile)) :
    Writes (wdsStartNwInterfaceReq sIsCdma sHdrPersonality profile)
      (startFields sIsCdma profile) := by
  have hlt : (encodeAll (startFields sIsCdma profile)).length < 65500 := by
    simp only [FitsBuffer, wdmDefaultBufsize] at hfits
    omega
  refine ⟨fun mem i hi => ?_, fun mem => ?_, fun mem => ?_⟩
  · obtain ⟨t, ht, hw⟩ := written_start sIsCdma sHdrPersonality profile mem
    rw [ht]
    refine (hw.frame i (Nat.lt_trans hi (by decide))).trans ?_
    exact store_of_lt _ _ hi
  · obtain ⟨t, ht, hw⟩ := written_start sIsCdma sHdrPersonality profile mem
    rw [ht]
    dsimp only
    rw [hw.length (by omega)]
    exact Nat.mod_eq_of_lt (by simp only [startReqSize]; omega)
  · obtain ⟨t, ht, hw⟩ := written_start sIsCdma sHdrPersonality profile mem
    rw [ht]
    exact hw.bytes (by omega)

theorem writes_modify {profile : Profile} (hfits : FitsBuffer (modifyFields profile)) :
    Writes (wdsModifyProfileSettingsReq profile) (modifyFields profile) := by
  have hlen : (encodeAll (modifyFields profile)).length =
      5 + (encodeAll (settingFields profile)).length := by
    simp [modifyFields, Field.size, headerSize]
  have hlt : (encodeAll (settingFields profile)).length < 65500 := by
    simp only [FitsBuffer, wdmDefaultBufsize] at hfits
    omega
  refine ⟨fun mem i hi => ?_, fun mem => ?_, fun mem => ?_⟩
  · obtain ⟨t, ht, hw⟩ := written_modify profile mem
    rw [ht]
    refine (hw.frame i (Nat.lt_trans hi (by decide))).trans ?_
    rw [store_of_lt _ _ (by omega), store_of_lt _ _ hi]
  · obtain ⟨t, ht, hw⟩ := written_modify profile mem
    rw [ht]
    dsimp only
    rw [hw.length (by omega), hlen]
    simp only [modifyReqSize, qcqmuxMsgHdrSize]
    omega
  · obtain ⟨t, ht, hw⟩ := written_modify profile mem
    rw [ht, hlen, load_append, hw.bytes (by omega)]
    -- the TLV of the profile index lies in front of the others
    have hindex : load t.1 firstTLV 5 = load (store
        (store mem 11 (le16 (modifyReqSize - 4))) 13
          (0x01 :: le16 2 ++ [0x00, uchar profile.pdp])) firstTLV 5 :=
      load_congr fun i _ hi => hw.frame i hi
    rw [hindex]
    exact congrArg (· ++ encodeAll (settingFields profile))
      (load_store_self _ 13 (0x01 :: le16 2 ++ [0x00, uchar profile.pdp]))

theorem le16In_store (mem : ℕ → UInt8) (p n : ℕ) :
    le16In (store mem p (le16 n)) p = n % 65536 := by
  have hload : load (store mem p (le16 n)) p 2 = le16 n ++ [] :=
    (load_store_self mem p (le16 n)).trans (List.append_nil _).symm
  rw [le16In, hload, le16At_le16]

theorem le16_add (n : ℕ) : le16 (n + 65536) = le16 n := by
  rw [← le16_mod, Nat.add_mod_right, le16_mod]

/-- The header in front of the lengths. -/
def headerIn (qmiType : UInt8) (type transactionId : ℕ) (stack : ℕ → UInt8) : ℕ → UInt8 :=
  store (store (store (store (fun i => if i < wdmDefaultBufsize then 0 else stack i) 0
    [usbCtlMsgTypeQmi]) 3 [0x00, qmiType]) 6
      ((qmuxCtlFlagSingleMsg ||| qmuxCtlFlagTypeCmd) :: le16 transactionId)) 9 (le16 type)

theorem load_headerIn (qmiType : UInt8) (type transactionId : ℕ) (stack : ℕ → UInt8) :
    headerIn qmiType type transactionId stack 0 = usbCtlMsgTypeQmi ∧
      load (headerIn qmiType type transactionId stack) 3 8 =
        [0x00, qmiType, 0x00] ++ [qmuxCtlFlagSingleMsg ||| qmuxCtlFlagTypeCmd] ++
          le16 transactionId ++ le16 type := by
  constructor
  · simp [headerIn, store, le16]
  · simp [headerIn, load_succ, store, le16, wdmDefaultBufsize]

/-- The message when both lengths have been written. -/
theorem load_lengths (mem : ℕ → UInt8) (length whole n : ℕ) :
    load (store (store mem 11 (le16 length)) 1 (le16 whole)) 0 (1 + (2 + (8 + (2 + n)))) =
      mem 0 :: (le16 whole ++ (load mem 3 8 ++ (le16 length ++ load mem 13 n))) := by
  -- piece by piece: the first byte, the length, the fields between, the other length, the TLVs
  have hpiece0 : load (store (store mem 11 (le16 length)) 1 (le16 whole)) 0 1 = [mem 0] := by
    rw [load_succ, load_zero, store_of_lt _ _ (by omega), store_of_lt _ _ (by omega)]
  have hpiece1 := load_store_self (store mem 11 (le16 length)) 1 (le16 whole)
  have hpiece3 : load (store (store mem 11 (le16 length)) 1 (le16 whole)) 3 8 = load mem 3 8 := by
    rw [load_store_of_ge _ _ (by simp), load_store_of_le _ _ (by omega)]
  have hpiece11 : load (store (store mem 11 (le16 length)) 1 (le16 whole)) 11 2 =
      le16 length := by
    rw [load_store_of_ge _ _ (by simp)]
    exact load_store_self _ 11 (le16 length)
  have hpiece13 : load (store (store mem 11 (le16 length)) 1 (le16 whole)) 13 n =
      load mem 13 n := by
    rw [load_store_of_ge _ _ (by simp), load_store_of_ge _ _ (by simp)]
  rw [load_append, load_append, load_append, load_append]
  simp only [Nat.zero_add, Nat.reduceAdd]
  rw [le16_length] at hpiece1
  rw [hpiece0, hpiece1, hpiece3, hpiece11, hpiece13]
  rfl

/-- **The bytes of a request that fits the buffer.** -/
theorem composeQMUXMsg_eq {custom : (ℕ → UInt8) → Tlvs} {fs : List Field}
    (hcustom : Writes custom fs) (hfits : FitsBuffer fs) (qmiType : UInt8)
    (type transactionId : ℕ) (stack : ℕ → UInt8) :
    composeQMUXMsg qmiType type (some custom) transactionId stack =
      qmuxMessage qmiType type transactionId fs := by
  have hlt : (encodeAll fs).length < 244 := by
    simp only [FitsBuffer, firstTLV, qcqmiHdrSize, qcqmuxHdrSize, qcqmuxMsgHdrSize,
      wdmDefaultBufsize] at hfits
    omega
  obtain ⟨hfirst, hheader⟩ := load_headerIn qmiType type transactionId stack
  unfold composeQMUXMsg
  dsimp only
  rw [show store _ 9 (le16 type) = headerIn qmiType type transactionId stack from rfl]
  generalize headerIn qmiType type transactionId stack = mem at hfirst hheader ⊢
  have hframe := hcustom.frame mem
  have hsize : (custom mem).2 + 65536 - qcqmuxMsgHdrSize = (encodeAll fs).length + 65536 := by
    rw [hcustom.size]
    omega
  rw [hsize, le16_add, le16In_store, le16In_store]
  have hmod : (encodeAll fs).length % 65536 = (encodeAll fs).length := by omega
  have hwhole : ((encodeAll fs).length + qcqmuxMsgHdrSize + qcqmuxHdrSize + qcqmiHdrSize - 1) =
      (encodeAll fs).length + 12 := rfl
  have hmod' : ((encodeAll fs).length + 12) % 65536 = (encodeAll fs).length + 12 := by omega
  have hcount : (encodeAll fs).length + 12 + 1 = 1 + (2 + (8 + (2 + (encodeAll fs).length))) := by
    omega
  have hfields : load (custom mem).1 3 8 = load mem 3 8 :=
    load_congr fun i _ hi => hframe i (by omega)
  have htlvs : load (custom mem).1 13 (encodeAll fs).length = encodeAll fs := hcustom.bytes mem
  rw [hmod, hwhole, hmod', hcount, load_lengths, hframe 0 (by omega), hfirst, hfields, hheader,
    htlvs]
  simp [qmuxMessage]

end QuectelCM

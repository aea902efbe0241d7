/-
**What a request says.**

A request that has been put together byte by byte is read back by its lengths: its TLVs are a list
of fields that ends where the message ends, and `GetTLV` finds in it what stands in the profile.  A
number of the profile is an `int` and its TLV has one byte, so that only the low byte is in the
request.

* `QuectelCM.Decodes` — the lengths of a message are right, and `GetTLV` finds its fields;
* `QuectelCM.StartDecoded`, `QuectelCM.ModifyDecoded` — what the two requests say;
* `QuectelCM.decodes_qmuxMessage` — a message that has been written out;
* `QuectelCM.requests_decoded` — **a request that fits the buffer says what stands in the
  profile**;
* `QuectelCM.not_authPreference` — an `auth` of more than a byte.
-/
import OpenwrtPackage.QuectelCM.Compose

set_option relaxedAutoImplicit false
set_option autoImplicit false

namespace QuectelCM

open Qmi Bytes Tlv

/-! ### Reading a message -/

/-- The TLVs of the message are the fields `fs`, both its lengths are right, and `GetTLV` finds the
first field of each type. -/
structure Decodes (m : List UInt8) (fs : List Field) : Prop where
  parsed : parse (m.drop firstTLV) = some fs
  length : qmuxMsgHdrLength m = (fs.map Field.size).sum
  whole : qmiHdrLength m + 1 = m.length
  found : ∀ type, tlvValue m type = lookup type fs

section

variable {qmiType : UInt8} {type transactionId : ℕ} {fs : List Field}

theorem qmuxMessage_drop :
    (qmuxMessage qmiType type transactionId fs).drop firstTLV = encodeAll fs := by
  simp [qmuxMessage, le16, firstTLV, qcqmiHdrSize, qcqmuxHdrSize, qcqmuxMsgHdrSize]

/-- **A message that has been written out is read back.** -/
theorem decodes_qmuxMessage (hfits : FitsBuffer fs) :
    Decodes (qmuxMessage qmiType type transactionId fs) fs := by
  have hlt : (encodeAll fs).length < 65000 := by
    simp only [FitsBuffer, wdmDefaultBufsize] at hfits
    omega
  have hlength : qmuxMsgHdrLength (qmuxMessage qmiType type transactionId fs) =
      (encodeAll fs).length := by
    have hdrop : (qmuxMessage qmiType type transactionId fs).drop 11 =
        le16 (encodeAll fs).length ++ encodeAll fs := by
      simp [qmuxMessage, le16]
    rw [qmuxMsgHdrLength, ← Nat.add_zero 11, ← le16At_drop, hdrop, le16At_le16]
    omega
  refine ⟨?_, ?_, ?_, fun t => ?_⟩
  · rw [qmuxMessage_drop]
    exact parse_encodeAll (fits_of_encodeAll_lt (by omega))
  · rw [hlength, encodeAll_length]
  · have hdrop : ∃ rest, (qmuxMessage qmiType type transactionId fs).drop 1 =
        le16 ((encodeAll fs).length + 12) ++ rest := by
      refine ⟨[0x00, qmiType, 0x00] ++ [qmuxCtlFlagSingleMsg ||| qmuxCtlFlagTypeCmd] ++
        le16 transactionId ++ le16 type ++ le16 (encodeAll fs).length ++ encodeAll fs, ?_⟩
      simp [qmuxMessage, le16]
    obtain ⟨rest, hrest⟩ := hdrop
    rw [qmiHdrLength, ← Nat.add_zero 1, ← le16At_drop, hrest, le16At_le16]
    simp only [qmuxMessage, List.length_append, List.length_cons, List.length_nil, le16_length]
    omega
  · exact tlvValue_eq_lookup t qmuxMessage_drop hlength (by omega)

end

/-! ### Looking up in a request -/

@[simp] theorem lookup_stringField (type type' : UInt8) (s : Option CStr) :
    lookup type (stringField type' s) = if type' = type then s.map Subtype.val else none := by
  cases s with
  | none => simp [stringField]
  | some s => simp [stringField]

@[simp] theorem lookup_ite {p : Prop} [Decidable p] (type : UInt8) (fs : List Field) :
    lookup type (if p then fs else []) = if p then lookup type fs else none := by
  split <;> rfl

/-- The byte of a number that fits. -/
theorem uchar_toNat (n : ℤ) : ((uchar n).toNat : ℤ) = n % 256 := by
  have hlt : (n % 256).toNat < 256 := by omega
  rw [uchar, UInt8.toNat_ofNat', Nat.mod_eq_of_lt hlt]
  omega

/-! ### The two requests -/

/-- What `QMIWDS_START_NETWORK_INTERFACE` says of the profile. -/
structure StartDecoded (sIsCdma : ℤ) (profile : Profile) (m : List UInt8) : Prop where
  length : ∃ fs, parse (m.drop firstTLV) = some fs ∧
    qmuxMsgHdrLength m = (fs.map Field.size).sum
  whole : qmiHdrLength m + 1 = m.length
  apn : tlvValue m 0x14 = if sIsCdma = 0 then profile.apn.map Subtype.val else none
  user : tlvValue m 0x17 = (profileUser sIsCdma profile).map Subtype.val
  password : tlvValue m 0x18 = (profilePassword sIsCdma profile).map Subtype.val
  auth : tlvValue m 0x16 =
    if profileUser sIsCdma profile ≠ none ∧ profilePassword sIsCdma profile ≠ none then
      some [uchar (profileAuth sIsCdma profile)]
    else none
  ipFamily : tlvValue m 0x19 = some [uchar profile.curIpFamily]
  profileIndex : tlvValue m 0x31 =
    if profile.pdp ≠ 0 ∧ sIsCdma = 0 then some [uchar profile.pdp] else none

/-- What `QMIWDS_MODIFY_PROFILE_SETTINGS` says of the profile. -/
structure ModifyDecoded (profile : Profile) (m : List UInt8) : Prop where
  length : ∃ fs, parse (m.drop firstTLV) = some fs ∧
    qmuxMsgHdrLength m = (fs.map Field.size).sum
  whole : qmiHdrLength m + 1 = m.length
  profileIndex : tlvValue m 0x01 = some [0x00, uchar profile.pdp]
  pdpType : tlvValue m 0x11 = some [uchar profile.iptype]
  apn : tlvValue m 0x14 = profile.apn.map Subtype.val
  user : tlvValue m 0x1B = profile.user.map Subtype.val
  password : tlvValue m 0x1C = profile.password.map Subtype.val
  auth : tlvValue m 0x1D =
    if profile.user ≠ none ∧ profile.password ≠ none then some [uchar profile.auth] else none

theorem startDecoded_of_decodes {sIsCdma : ℤ} {profile : Profile} {m : List UInt8}
    (h : Decodes m (startFields sIsCdma profile)) : StartDecoded sIsCdma profile m where
  length := ⟨_, h.parsed, h.length⟩
  whole := h.whole
  apn := by simp [h.found, startFields]
  user := by simp [h.found, startFields]
  password := by simp [h.found, startFields]
  auth := by simp [h.found, startFields]
  ipFamily := by simp [h.found, startFields]
  profileIndex := by simp [h.found, startFields]

theorem modifyDecoded_of_decodes {profile : Profile} {m : List UInt8}
    (h : Decodes m (modifyFields profile)) : ModifyDecoded profile m where
  length := ⟨_, h.parsed, h.length⟩
  whole := h.whole
  profileIndex := by simp [h.found, modifyFields, settingFields]
  pdpType := by simp [h.found, modifyFields, settingFields]
  apn := by simp [h.found, modifyFields, settingFields]
  user := by simp [h.found, modifyFields, settingFields]
  password := by simp [h.found, modifyFields, settingFields]
  auth := by simp [h.found, modifyFields, settingFields]

/-- **Each request that fits the buffer says what stands in the profile.** -/
theorem requests_decoded (sIsCdma sHdrPersonality : ℤ) (profile : Profile) (qmiType : UInt8)
    (transactionId : ℕ) (stack : ℕ → UInt8) :
    (FitsBuffer (startFields sIsCdma profile) →
      StartDecoded sIsCdma profile
        (composeQMUXMsg qmiType qmiwdsStartNetworkInterfaceReq
          (some (wdsStartNwInterfaceReq sIsCdma sHdrPersonality profile)) transactionId stack)) ∧
    (FitsBuffer (modifyFields profile) →
      ModifyDecoded profile
        (composeQMUXMsg qmiType qmiwdsModifyProfileSettingsReq
          (some (wdsModifyProfileSettingsReq profile)) transactionId stack)) := by
  constructor
  · intro hfits
    rw [composeQMUXMsg_eq (writes_start sIsCdma sHdrPersonality hfits) hfits]
    exact startDecoded_of_decodes (decodes_qmuxMessage hfits)
  · intro hfits
    rw [composeQMUXMsg_eq (writes_modify hfits) hfits]
    exact modifyDecoded_of_decodes (decodes_qmuxMessage hfits)

/-- A profile with an access point and credentials. -/
def internetProfile (auth : ℤ) : Profile :=
  { Profile.default true false with
    apn := some ⟨ascii "internet", by decide⟩
    user := some ⟨ascii "user", by decide⟩
    password := some ⟨ascii "secret", by decide⟩
    auth := auth
    curIpFamily := 4 }

/-- Its requests fit. -/
theorem requests_decoded_internet :
    StartDecoded 0 (internetProfile 2)
        (composeQMUXMsg qmuxTypeWds qmiwdsStartNetworkInterfaceReq
          (some (wdsStartNwInterfaceReq 0 0 (internetProfile 2))) 1 fun _ => 0) ∧
      ModifyDecoded (internetProfile 2)
        (composeQMUXMsg qmuxTypeWds qmiwdsModifyProfileSettingsReq
          (some (wdsModifyProfileSettingsReq (internetProfile 2))) 1 fun _ => 0) :=
  ⟨(requests_decoded 0 0 (internetProfile 2) qmuxTypeWds 1 fun _ => 0).1 (by decide +kernel),
    (requests_decoded 0 0 (internetProfile 2) qmuxTypeWds 1 fun _ => 0).2 (by decide +kernel)⟩

/-- The number 256 has no place in one byte. -/
theorem not_authPreference : ¬ ∀ profile : Profile, FitsBuffer (startFields 0 profile) →
    profile.user ≠ none → profile.password ≠ none →
    ∃ b, tlvValue (composeQMUXMsg qmuxTypeWds qmiwdsStartNetworkInterfaceReq
        (some (wdsStartNwInterfaceReq 0 0 profile)) 1 fun _ => 0) 0x16 = some [b] ∧
      (b.toNat : ℤ) = profile.auth := by
  intro hall
  have hfits : FitsBuffer (startFields 0 (internetProfile 256)) := by decide +kernel
  obtain ⟨b, hfound, hb⟩ := hall (internetProfile 256) hfits (by decide) (by decide)
  rw [composeQMUXMsg_eq (writes_start 0 0 hfits) hfits,
    (decodes_qmuxMessage hfits).found] at hfound
  have hzero : lookup 0x16 (startFields 0 (internetProfile 256)) = some [0] := by decide +kernel
  obtain rfl : (0 : UInt8) = b := by simpa using hzero.symm.trans hfound
  exact absurd hb (by decide)

end QuectelCM

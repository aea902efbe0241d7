/-
**Setting the profile of the modem.**

At its start the program reads the profile that the modem has stored, compares it with the one the
user asks for, and sends a request when they differ.  A string of the modem is copied into 64 bytes,
its NUL included, while a string of the user can be longer; a number of the modem is a byte, while
one of the user is an `int`.

* `QuectelCM.uchar2char` — `uchar2char` into a field of 64 bytes;
* `QuectelCM.requestSetProfile`, `QuectelCM.requestGetProfile`;
* `QuectelCM.Echoes` — a modem that gives back what it has been told;
* `QuectelCM.Converges` — after the update the profile is read back and nothing more is sent;
* `QuectelCM.Storable` — the strings have at most 63 bytes and the numbers fit a byte;
* `QuectelCM.converges_iff` — **an update converges exactly when the profile is storable**;
* `QuectelCM.not_converges` — an access point with a name of 64 bytes.
-/
import Mathlib.Data.List.TakeDrop
import Mathlib.Data.List.TakeWhile
import OpenwrtPackage.QuectelCM.Encoding
import OpenwrtPackage.QuectelCM.Requests

set_option relaxedAutoImplicit false
set_option autoImplicit false

namespace QuectelCM

open Qmi Bytes Tlv

/-! ### The requests -/

/-- `QMI_ERR_EXTENDED_INTERNAL` -/
def qmiErrExtendedInternal : ℕ := 0x0051

/-- `sizeof(profile->old_apn)`, and the same for the user and the password. -/
def oldSize : ℕ := 64

/-- The string in a buffer: the bytes in front of the first NUL. -/
def cstrOf (m : List UInt8) : CStr :=
  ⟨m.takeWhile (· ≠ 0), fun h => by simpa using List.mem_takeWhile_imp h⟩

/-- `uchar2char` into a buffer of 64 bytes. -/
def uchar2char (src : List UInt8) : CStr := cstrOf (src.take (oldSize - 1))

/-- `profile->apn ? profile->apn : ""` -/
def orEmpty (s : Option CStr) : CStr := s.getD .empty

/-- The profile of the modem is the one that is asked for. -/
def NoNeedToSet (profile : Profile) : Prop :=
  profile.oldApn = orEmpty profile.apn ∧ profile.oldUser = orEmpty profile.user ∧
    profile.oldPassword = orEmpty profile.password ∧ profile.oldIptype = profile.iptype ∧
    profile.oldAuth = profile.auth

instance (profile : Profile) : Decidable (NoNeedToSet profile) :=
  inferInstanceAs (Decidable (_ ∧ _ ∧ _ ∧ _ ∧ _))

/-- The request of `requestSetProfile`. -/
def modifyRequest (profile : Profile) (transactionId : ℕ) (stack : ℕ → UInt8) : List UInt8 :=
  composeQMUXMsg qmuxTypeWds qmiwdsModifyProfileSettingsReq
    (some (wdsModifyProfileSettingsReq profile)) transactionId stack

/-- `requestSetProfile`: the result, and the request when one is sent. -/
def requestSetProfile (profile : Profile) (transactionId : ℕ) (stack : ℕ → UInt8) (a : Answer) :
    ℤ × Option (List UInt8) :=
  if profile.pdp = 0 then (-1, none)
  else if NoNeedToSet profile then (0, none)
  else
    (match qmiRspCheck a with
      | .error err => err
      | .ok _ => 1,
      some (modifyRequest profile transactionId stack))

/-- `profile->iptype` by the families that are asked for. -/
def enabledIptype (profile : Profile) : ℤ :=
  if profile.enableIpv4 ∧ profile.enableIpv6 then 3
  else if profile.enableIpv6 then 2
  else 0

/-- The profile before `requestGetProfile` asks the modem. -/
def forgetOld (profile : Profile) : Profile :=
  { profile with
    oldApn := .empty
    oldUser := .empty
    oldPassword := .empty
    oldAuth := 0
    oldIptype := 0
    iptype := enabledIptype profile }

/-- A string of the response, if it has one. -/
def oldString (m : List UInt8) (type : UInt8) (old : CStr) : CStr :=
  match tlvValue m type with
  | some value => uchar2char value
  | none => old

/-- A number of one byte of the response, if it has one. -/
def oldByte (m : List UInt8) (type : UInt8) (old : ℤ) : ℤ :=
  match getTLV m type.toNat with
  | some p => (byteAt m (p + qmiTlvHdrSize)).toNat
  | none => old

/-- The response is copied into the profile. -/
def readOld (profile : Profile) (m : List UInt8) : Profile :=
  { profile with
    oldApn := oldString m 0x14 profile.oldApn
    oldUser := oldString m 0x1B profile.oldUser
    oldPassword := oldString m 0x1C profile.oldPassword
    oldAuth := oldByte m 0x1D profile.oldAuth
    oldIptype := oldByte m 0x11 profile.oldIptype }

/-- The modem has no such profile. -/
def NoProfile (a : Answer) : Prop :=
  ∃ m, a = .response m ∧ qmuxResult m ≠ 0 ∧ qmuxError m = qmiErrExtendedInternal

instance (a : Answer) : Decidable (NoProfile a) :=
  match a with
  | .response m =>
      decidable_of_iff (qmuxResult m ≠ 0 ∧ qmuxError m = qmiErrExtendedInternal)
        ⟨fun h => ⟨m, rfl, h⟩, fun ⟨_, hm, h⟩ => Answer.response.inj hm ▸ h⟩
  | .failed _ => .isFalse fun ⟨_, hm, _⟩ => Answer.noConfusion hm

/-- The loop at `_re_check`: each round has the answer to the question for the profile, and the
answer to the request to create it, which is sent when there is none.  While the answers do not end
it, the loop has no result. -/
def reCheck (profile : Profile) : List (Answer × Answer) → Option (ℤ × Profile)
  | [] => none
  | (get, create) :: answers =>
      if NoProfile get then
        match qmiRspCheck create with
        | .error err => some (err, profile)
        | .ok _ => reCheck profile answers
      else
        match qmiRspCheck get with
        | .error err => some (err, profile)
        | .ok m => some (0, readOld profile m)

/-- `requestGetProfile`: the result and the profile. -/
def requestGetProfile (profile : Profile) (answers : List (Answer × Answer)) :
    Option (ℤ × Profile) :=
  if profile.pdp = 0 then some (0, forgetOld profile) else reCheck (forgetOld profile) answers

/-! ### What should hold of an update -/

/-- The types of the settings in a profile. -/
def settingTypes : List UInt8 := [0x11, 0x14, 0x1B, 0x1C, 0x1D]

/-- The response of a modem that has stored the TLVs of the request. -/
structure Echoes (request response : List UInt8) : Prop where
  result : qmuxResult response = 0
  error : qmuxError response = 0
  settings : ∀ type ∈ settingTypes, tlvValue response type = tlvValue request type

/-- The profile is read with this response, and then nothing has to be sent. -/
def Converges (profile : Profile) (response : List UInt8) : Prop :=
  ∀ create answers transactionId stack a,
    ∃ profile', requestGetProfile profile ((.response response, create) :: answers) =
        some (0, profile') ∧
      requestSetProfile profile' transactionId stack a = (0, none)

/-- The modem can give back what the profile says: the strings fit into the fields for them, the
numbers fit a byte, and the type is the one of the families that are asked for. -/
structure Storable (profile : Profile) : Prop where
  apn : (orEmpty profile.apn).1.length ≤ 63
  user : (orEmpty profile.user).1.length ≤ 63
  password : (orEmpty profile.password).1.length ≤ 63
  auth : 0 ≤ profile.auth ∧ profile.auth ≤ 255
  iptype : profile.iptype % 256 = enabledIptype profile

/-! ### Reading back -/

/-- A string comes back whole when it has at most 63 bytes. -/
theorem uchar2char_eq_iff (s : CStr) : uchar2char s.1 = s ↔ s.1.length ≤ 63 := by
  have hnul : ∀ b ∈ s.1.take (oldSize - 1), b ≠ 0 := by
    rintro b hb rfl
    exact s.2 (List.mem_of_mem_take hb)
  have hwhole : (uchar2char s.1).1 = s.1.take (oldSize - 1) :=
    List.takeWhile_eq_self_iff.2 fun b hb => decide_eq_true (hnul b hb)
  rw [Subtype.ext_iff, hwhole, List.take_eq_self_iff]
  rfl

theorem oldString_of_tlvValue {m : List UInt8} {type : UInt8} {s : CStr}
    (h : tlvValue m type = some s.1) (old : CStr) : oldString m type old = uchar2char s.1 := by
  rw [oldString, h]

theorem oldByte_of_tlvValue {m : List UInt8} {type : UInt8} {n : ℤ}
    (h : tlvValue m type = some [uchar n]) (old : ℤ) : oldByte m type old = n % 256 := by
  obtain ⟨p, hp, hvalue⟩ := Option.map_eq_some_iff.1 h
  have hlen : tlvLength m p = 1 := by simpa [bytesAt] using congrArg List.length hvalue
  rw [hlen] at hvalue
  have hbyte : byteAt m (p + qmiTlvHdrSize) = uchar n := by simpa [bytesAt] using hvalue
  rw [oldByte, hp]
  exact (congrArg (fun b : UInt8 => (b.toNat : ℤ)) hbyte).trans (uchar_toNat n)

theorem oldAuth_eq_iff (n : ℤ) : n % 256 = n ↔ 0 ≤ n ∧ n ≤ 255 := by omega

/-- What `requestGetProfile` makes of a response that is no error. -/
theorem requestGetProfile_of_ok {profile : Profile} {response : List UInt8}
    (hpdp : profile.pdp ≠ 0) (hresult : qmuxResult response = 0) (herror : qmuxError response = 0)
    (create : Answer) (answers : List (Answer × Answer)) :
    requestGetProfile profile ((.response response, create) :: answers) =
      some (0, readOld (forgetOld profile) response) := by
  have hfound : ¬ NoProfile (.response response) := by
    rintro ⟨m, hm, hne, -⟩
    exact hne (Answer.response.inj hm ▸ hresult)
  rw [requestGetProfile, if_neg hpdp, reCheck, if_neg hfound]
  simp [qmiRspCheck, hresult, herror]

/-- Nothing is sent exactly when nothing has to be set. -/
theorem requestSetProfile_eq_zero {profile : Profile} (hpdp : profile.pdp ≠ 0)
    (transactionId : ℕ) (stack : ℕ → UInt8) (a : Answer) :
    requestSetProfile profile transactionId stack a = (0, none) ↔ NoNeedToSet profile := by
  rw [requestSetProfile, if_neg hpdp]
  split
  · rename_i hsame
    exact ⟨fun _ => hsame, fun _ => rfl⟩
  · rename_i hdiff
    exact ⟨fun heq => by simp at heq, fun hsame => absurd hsame hdiff⟩

/-- The profile that comes back from a modem that has stored the request. -/
theorem noNeedToSet_iff {profile : Profile} {apn user password : CStr}
    (hapn : profile.apn = some apn) (huser : profile.user = some user)
    (hpassword : profile.password = some password) {request response : List UInt8}
    (hrequest : ModifyDecoded profile request) (hecho : Echoes request response) :
    NoNeedToSet (readOld (forgetOld profile) response) ↔ Storable profile := by
  have hstored : ∀ type ∈ settingTypes, tlvValue response type = tlvValue request type :=
    hecho.settings
  have happnValue : tlvValue response 0x14 = some apn.1 := by
    rw [hstored _ (by decide), hrequest.apn, hapn, Option.map_some]
  have huserValue : tlvValue response 0x1B = some user.1 := by
    rw [hstored _ (by decide), hrequest.user, huser, Option.map_some]
  have hpasswordValue : tlvValue response 0x1C = some password.1 := by
    rw [hstored _ (by decide), hrequest.password, hpassword, Option.map_some]
  have hauthValue : tlvValue response 0x1D = some [uchar profile.auth] := by
    rw [hstored _ (by decide), hrequest.auth, huser, hpassword, if_pos (by simp)]
  have hiptypeValue : tlvValue response 0x11 = some [uchar profile.iptype] := by
    rw [hstored _ (by decide), hrequest.pdpType]
  have hneed : NoNeedToSet (readOld (forgetOld profile) response) ↔
      uchar2char apn.1 = apn ∧ uchar2char user.1 = user ∧ uchar2char password.1 = password ∧
        profile.iptype % 256 = enabledIptype profile ∧ profile.auth % 256 = profile.auth := by
    simp only [NoNeedToSet, readOld, forgetOld, oldString_of_tlvValue happnValue,
      oldString_of_tlvValue huserValue, oldString_of_tlvValue hpasswordValue,
      oldByte_of_tlvValue hauthValue, oldByte_of_tlvValue hiptypeValue, hapn, huser, hpassword,
      orEmpty, Option.getD_some]
  rw [hneed, uchar2char_eq_iff, uchar2char_eq_iff, uchar2char_eq_iff, oldAuth_eq_iff]
  constructor
  · rintro ⟨h1, h2, h3, h4, h5⟩
    exact ⟨by rwa [hapn], by rwa [huser], by rwa [hpassword], h5, h4⟩
  · intro h
    have h1 := h.apn
    have h2 := h.user
    have h3 := h.password
    rw [hapn] at h1
    rw [huser] at h2
    rw [hpassword] at h3
    exact ⟨h1, h2, h3, h.iptype, h.auth⟩

/-- Whether nothing more is sent is decided by the profile that has come back. -/
theorem converges_iff_noNeedToSet {profile : Profile} {request response : List UInt8}
    (hpdp : profile.pdp ≠ 0) (hecho : Echoes request response) :
    Converges profile response ↔ NoNeedToSet (readOld (forgetOld profile) response) := by
  have hget := @requestGetProfile_of_ok profile response hpdp hecho.result hecho.error
  have hpdp' : (readOld (forgetOld profile) response).pdp ≠ 0 := hpdp
  constructor
  · intro h
    obtain ⟨profile', heq, hzero⟩ := h (.failed 0) [] 0 (fun _ => 0) (.failed 0)
    rw [hget] at heq
    obtain rfl : readOld (forgetOld profile) response = profile' := by simpa using heq
    exact (requestSetProfile_eq_zero hpdp' ..).1 hzero
  · intro h create answers transactionId stack a
    exact ⟨_, hget create answers, (requestSetProfile_eq_zero hpdp' ..).2 h⟩

/-- The request of an update says what stands in the profile. -/
theorem modifyDecoded_of_sent {profile : Profile} {transactionId : ℕ} {stack : ℕ → UInt8}
    {a : Answer} {request : List UInt8} (hpdp : profile.pdp ≠ 0)
    (hfits : FitsBuffer (modifyFields profile))
    (hset : requestSetProfile profile transactionId stack a = (1, some request)) :
    ModifyDecoded profile request := by
  have hsent : request = modifyRequest profile transactionId stack := by
    rw [requestSetProfile, if_neg hpdp] at hset
    split at hset
    · simp at hset
    · exact (Option.some.inj (congrArg Prod.snd hset)).symm
  rw [hsent, modifyRequest, composeQMUXMsg_eq (writes_modify hfits) hfits]
  exact modifyDecoded_of_decodes (decodes_qmuxMessage hfits)

/-- **After an update the profile is read back and nothing more is sent exactly when the profile is
storable.** -/
theorem converges_iff {profile : Profile} {apn user password : CStr}
    (hpdp : profile.pdp ≠ 0) (hapn : profile.apn = some apn) (huser : profile.user = some user)
    (hpassword : profile.password = some password) (hfits : FitsBuffer (modifyFields profile))
    {transactionId : ℕ} {stack : ℕ → UInt8} {a : Answer} {request response : List UInt8}
    (hset : requestSetProfile profile transactionId stack a = (1, some request))
    (hecho : Echoes request response) :
    Converges profile response ↔ Storable profile :=
  (converges_iff_noNeedToSet hpdp hecho).trans
    (noNeedToSet_iff hapn huser hpassword (modifyDecoded_of_sent hpdp hfits hset) hecho)

/-- A profile whose access point has a name of this length. -/
def longProfile (n : ℕ) : Profile :=
  { internetProfile 2 with
    apn := some ⟨List.replicate n 97, fun h => absurd (List.eq_of_mem_replicate h) (by decide)⟩ }

/-- The modem has done what it has been told. -/
def successResp : List UInt8 :=
  [0x01, 19, 0, 0x80, 0x01, 1, 0x02, 1, 0, 0x28, 0, 7, 0, 0x02, 4, 0, 0, 0, 0, 0]

/-- The modem gives back the settings that it has stored. -/
def profileResp (profile : Profile) : List UInt8 :=
  qmuxMessage qmuxTypeWds 0x002B 2 (⟨0x02, [0, 0, 0, 0]⟩ :: settingFields profile)

theorem echoes_profileResp {profile : Profile} (transactionId : ℕ) (stack : ℕ → UInt8)
    (hfits : FitsBuffer (modifyFields profile))
    (hfits' : FitsBuffer (⟨0x02, [0, 0, 0, 0]⟩ :: settingFields profile)) :
    Echoes (modifyRequest profile transactionId stack) (profileResp profile) := by
  have hresponse : Decodes (profileResp profile) (⟨0x02, [0, 0, 0, 0]⟩ :: settingFields profile) :=
    decodes_qmuxMessage hfits'
  have hrequest : Decodes (modifyRequest profile transactionId stack) (modifyFields profile) := by
    rw [modifyRequest, composeQMUXMsg_eq (writes_modify hfits) hfits]
    exact decodes_qmuxMessage hfits
  have hdrop : (profileResp profile).drop 13 =
      [0x02, 4, 0, 0, 0, 0, 0] ++ encodeAll (settingFields profile) := qmuxMessage_drop
  refine ⟨?_, ?_, fun type htype => ?_⟩
  · rw [qmuxResult, ← le16At_drop _ 13 3, hdrop]
    rfl
  · rw [qmuxError, ← le16At_drop _ 13 5, hdrop]
    rfl
  · have hindex : ∀ t ∈ settingTypes, (0x01 : UInt8) ≠ t ∧ (0x02 : UInt8) ≠ t := by
      simp [settingTypes]
    rw [hresponse.found, hrequest.found, modifyFields, lookup_cons, lookup_cons,
      if_neg (hindex type htype).1, if_neg (hindex type htype).2]

/-- The name has eight bytes. -/
theorem converges_longProfile : Converges (longProfile 8) (profileResp (longProfile 8)) :=
  (@converges_iff (longProfile 8) _ _ _ (by decide) rfl rfl rfl (by decide +kernel) 1 (fun _ => 0)
    (.response successResp) (modifyRequest (longProfile 8) 1 fun _ => 0) _ rfl
    (echoes_profileResp 1 _ (by decide +kernel) (by decide +kernel))).2
    ⟨by decide, by decide, by decide, by decide, by decide⟩

/-- The name has 64 bytes: one too many for the field that it is copied into. -/
theorem not_converges : ¬ ∀ (profile : Profile) (transactionId : ℕ) (stack : ℕ → UInt8)
    (a : Answer) (request response : List UInt8), profile.pdp ≠ 0 → profile.apn ≠ none →
    profile.user ≠ none → profile.password ≠ none → FitsBuffer (modifyFields profile) →
    requestSetProfile profile transactionId stack a = (1, some request) →
    Echoes request response → Converges profile response := by
  intro hall
  have hfits : FitsBuffer (modifyFields (longProfile 64)) := by decide +kernel
  have hecho := @echoes_profileResp (longProfile 64) 1 (fun _ => 0) hfits (by decide +kernel)
  have hset : requestSetProfile (longProfile 64) 1 (fun _ => 0) (.response successResp) =
      (1, some (modifyRequest (longProfile 64) 1 fun _ => 0)) := rfl
  have hconverges := hall (longProfile 64) 1 (fun _ => 0) (.response successResp) _ _ (by decide)
    (by decide) (by decide) (by decide) hfits hset hecho
  have hstorable := (noNeedToSet_iff rfl rfl rfl (modifyDecoded_of_sent (by decide) hfits hset)
    hecho).1 ((converges_iff_noNeedToSet (by decide) hecho).1 hconverges)
  exact absurd hstorable.apn (by decide)

end QuectelCM

/-
**The request for the runtime settings on either host.**

The fields of a QMI message are little-endian.  `ComposeQMUXMsg` converts each of them, and so does
`WdsGetRuntimeSettingReq`, but for the mask: its closing parenthesis stands too early, so two of its
six bits are joined to the number that has been converted already.

* `QuectelCM.composeOn` — `ComposeQMUXMsg` on a host, and `QuectelCM.composeOn_eq`;
* `QuectelCM.wdsGetRuntimeSettingReq` — `WdsGetRuntimeSettingReq` on a host;
* `QuectelCM.runtimeSettingRequest_eq` — **the bytes of the request on a host**;
* `QuectelCM.runtimeSettingRequest_ne` — they are never the same.
-/
import OpenwrtPackage.Lib.HostOrder
import OpenwrtPackage.QuectelCM.Compose

set_option relaxedAutoImplicit false
set_option autoImplicit false

namespace QuectelCM

open Qmi Bytes Memory Tlv Host

/-! ### Constants -/

def qmiwdsGetRuntimeSettingsReq : ℕ := 0x002D

/-- `sizeof(QMIWDS_GET_RUNTIME_SETTINGS_REQ_MSG)` -/
def getRuntimeSettingsReqSize : ℕ := 11

def maskIpv4dnsAddr : UInt32 := (1 : UInt32) <<< 4

def maskIpv4Addr : UInt32 := (1 : UInt32) <<< 8

def maskIpv4gatewayAddr : UInt32 := (1 : UInt32) <<< 9

def maskMtu : UInt32 := (1 : UInt32) <<< 13

def maskPcscfSvAddr : UInt32 := (1 : UInt32) <<< 11

def maskPcscfDomName : UInt32 := (1 : UInt32) <<< 14

/-! ### The request -/

/-- `ComposeQMUXMsg` on a host of the order `e`. -/
def composeOn (e : Endian) (qmiType : UInt8) (type : ℕ) (custom : Option ((ℕ → UInt8) → Tlvs))
    (transactionId : ℕ) (stack : ℕ → UInt8) : List UInt8 :=
  let mem := fun i => if i < wdmDefaultBufsize then 0 else stack i
  let mem := store mem 0 [usbCtlMsgTypeQmi]
  let mem := store mem 3 [0x00, qmiType]
  let mem := store mem 6
    ((qmuxCtlFlagSingleMsg ||| qmuxCtlFlagTypeCmd) :: bytes16 e (htole16 e transactionId))
  let mem := store mem 9 (bytes16 e (htole16 e type))
  let mem :=
    match custom with
    | some custom =>
        store (custom mem).1 11
          (bytes16 e (htole16 e ((custom mem).2 + 65536 - qcqmuxMsgHdrSize)))
    | none => store mem 11 (bytes16 e (htole16 e 0))
  let mem := store mem 1
    (bytes16 e (htole16 e
      (le16toh e (load16 e mem 11) + qcqmuxMsgHdrSize + qcqmuxHdrSize + qcqmiHdrSize - 1)))
  load mem 0 (le16toh e (load16 e mem 1) + 1)

/-- The bits of the mask inside the parentheses of `cpu_to_le32`. -/
def convertedMask : UInt32 := maskIpv4dnsAddr ||| maskIpv4Addr ||| maskMtu ||| maskIpv4gatewayAddr

/-- `GetRuntimeSettingsReq.Mask` -/
def runtimeSettingsMask (e : Endian) : UInt32 :=
  htole32 e convertedMask ||| maskPcscfSvAddr ||| maskPcscfDomName

/-- `WdsGetRuntimeSettingReq` -/
def wdsGetRuntimeSettingReq (e : Endian) (mem : ℕ → UInt8) : Tlvs :=
  let mem := store mem 13 [0x10]
  let mem := store mem 14 (bytes16 e (htole16 e 0x04))
  let mem := store mem 16 (bytes32 e (runtimeSettingsMask e))
  (mem, getRuntimeSettingsReqSize)

/-- The request of `requestGetIPAddress`. -/
def runtimeSettingRequest (e : Endian) (qmiType : UInt8) (transactionId : ℕ)
    (stack : ℕ → UInt8) : List UInt8 :=
  composeOn e qmiType qmiwdsGetRuntimeSettingsReq (some (wdsGetRuntimeSettingReq e)) transactionId
    stack

/-! ### The bytes -/

/-- `ComposeQMUXMsg` converts each of its own fields once. -/
theorem composeOn_eq (e : Endian) (qmiType : UInt8) (type : ℕ)
    (custom : Option ((ℕ → UInt8) → Tlvs)) (transactionId : ℕ) (stack : ℕ → UInt8) :
    composeOn e qmiType type custom transactionId stack =
      composeQMUXMsg qmiType type custom transactionId stack := by
  simp only [composeOn, composeQMUXMsg, bytes16_htole16, le16toh_load16]
  rfl

/-- The TLV of the mask. -/
def maskField (e : Endian) : Field := ⟨0x10, bytes32 e (runtimeSettingsMask e)⟩

theorem encodeAll_maskField (e : Endian) :
    encodeAll [maskField e] = 0x10 :: le16 4 ++ bytes32 e (runtimeSettingsMask e) := by
  have hlen := bytes32_length e (runtimeSettingsMask e)
  simp [encodeAll, encode, maskField, hlen]

theorem writes_runtimeSetting (e : Endian) :
    Writes (wdsGetRuntimeSettingReq e) [maskField e] := by
  have hstore : ∀ mem, (wdsGetRuntimeSettingReq e mem).1 =
      store mem 13 (encodeAll [maskField e]) := by
    intro mem
    rw [encodeAll_maskField, ← List.singleton_append, List.append_assoc, store_append,
      store_append]
    simp only [wdsGetRuntimeSettingReq, bytes16_htole16]
    rfl
  have hlen : (encodeAll [maskField e]).length = 7 := by
    rw [encodeAll_maskField]
    simp [bytes32_length]
  refine ⟨fun mem i hi => ?_, fun mem => ?_, fun mem => ?_⟩
  · rw [hstore]
    exact store_of_lt _ _ (by omega)
  · rw [hlen]
    rfl
  · rw [hstore]
    exact load_store_self mem 13 _

/-- **The bytes of the request on a host.** -/
theorem runtimeSettingRequest_eq (e : Endian) (qmiType : UInt8) (transactionId : ℕ)
    (stack : ℕ → UInt8) :
    runtimeSettingRequest e qmiType transactionId stack =
      qmuxMessage qmiType qmiwdsGetRuntimeSettingsReq transactionId [maskField e] := by
  have hfits : FitsBuffer [maskField e] := by
    rw [FitsBuffer, encodeAll_maskField]
    simp [bytes32_length, firstTLV, qcqmiHdrSize, qcqmuxHdrSize, qcqmuxMsgHdrSize,
      wdmDefaultBufsize]
  rw [runtimeSettingRequest, composeOn_eq]
  exact composeQMUXMsg_eq (writes_runtimeSetting e) hfits qmiType _ transactionId stack

/-- The two bits stand at the wrong end of the mask on a big-endian host. -/
theorem maskField_ne :
    bytes32 .little (runtimeSettingsMask .little) ≠ bytes32 .big (runtimeSettingsMask .big) := by
  decide

theorem runtimeSettingRequest_ne (qmiType : UInt8) (transactionId : ℕ) (stack : ℕ → UInt8) :
    runtimeSettingRequest .little qmiType transactionId stack ≠
      runtimeSettingRequest .big qmiType transactionId stack := by
  intro h
  rw [runtimeSettingRequest_eq, runtimeSettingRequest_eq] at h
  -- the header has the same bytes on both hosts
  have hlittle := encodeAll_maskField .little
  have hbig := encodeAll_maskField .big
  have hlen : (encodeAll [maskField .little]).length = (encodeAll [maskField .big]).length := by
    rw [hlittle, hbig]
    simp [bytes32_length]
  rw [qmuxMessage, qmuxMessage, hlen] at h
  have htlvs := List.append_cancel_left h
  rw [hlittle, hbig] at htlvs
  exact maskField_ne (List.append_cancel_left htlvs)

end QuectelCM

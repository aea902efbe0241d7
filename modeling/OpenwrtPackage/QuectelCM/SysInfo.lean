/-
**The system info of the modem.**

`requestRegistrationState2` goes over the TLVs of a `QMINAS_GET_SYS_INFO` response: for each radio
one TLV says whether it gives service and one in which domains.  From these it takes whether the
packet domain is attached, whether the network is CDMA, and a name for the data capability.

Main definitions:

* `QuectelCM.sysInfoStep`, `QuectelCM.sysInfoLoop` — the `switch` and its loop;
* `QuectelCM.requestRegistrationState2` — the function, with the variables that it writes;
* `QuectelCM.IsSysInfo` — a response that is a list of TLVs.

Main results:

* `QuectelCM.sysInfoLoop_encodeAll` — on such a response the loop is a fold over the list;
* `QuectelCM.Attaching.step` — what one TLV makes of the two flags;
* `QuectelCM.requestRegistrationState2_flags` — **what the flags are at the end**, in any order.

The codes of country and network, which are printed only, are left out, and with them the request
for the home network in the branch of `0x16`. -/
import OpenwrtPackage.Lib.Fold
import OpenwrtPackage.Qmi.Fields
import OpenwrtPackage.QuectelCM.Requests

set_option relaxedAutoImplicit false
set_option autoImplicit false

namespace QuectelCM

open Qmi Bytes Tlv

/-! ### The TLVs -/

/-- The cases of the `switch`: for each radio whether it gives service, and its system info. -/
inductive SysTlv where
  | cdma
  | hdr
  | gsm
  | wcdma
  | lte
  | nr5g
  | nr5gInfo
  | endc
  | dcnr
  | tdscdma
  | cdmaInfo
  | hdrInfo
  | gsmInfo
  | wcdmaInfo
  | lteInfo
  | tdscdmaInfo
  | other
  deriving DecidableEq

/-- `pServiceStatusInfo->TLVType` -/
def sysTlv (type : UInt8) : SysTlv :=
  if type = 0x10 then .cdma
  else if type = 0x11 then .hdr
  else if type = 0x12 then .gsm
  else if type = 0x13 then .wcdma
  else if type = 0x14 then .lte
  else if type = 0x4A then .nr5g
  else if type = 0x4B then .nr5gInfo
  else if type = 0x4E then .endc
  else if type = 0x4F then .dcnr
  else if type = 0x24 then .tdscdma
  else if type = 0x15 then .cdmaInfo
  else if type = 0x16 then .hdrInfo
  else if type = 0x17 then .gsmInfo
  else if type = 0x18 then .wcdmaInfo
  else if type = 0x19 then .lteInfo
  else if type = 0x25 then .tdscdmaInfo
  else .other

/-- `SrvStatus` is `NAS_SYS_SRV_STATUS_SRV_V01`; `v` is the value of the TLV. -/
def srvStatus (v : ℕ → UInt8) : Bool := v 0 = 0x02

/-- `SrvDomainValid` is 1, and `SrvDomain` has the bit of the packet domain. -/
def srvDomain (v : ℕ → UInt8) : Bool := v 0 = 0x01 && v 1 &&& 0x02 ≠ 0

/-- `HdrPersonalityValid` is 1, and `HdrPersonality` is 3. -/
def hdrPersonality (v : ℕ → UInt8) : Bool := v 10 = 0x01 && v 11 = 0x03

/-! ### Data classes -/

def wwanDataClassNone : UInt32 := 0x00000000

def wwanDataClassGprs : UInt32 := 0x00000001

def wwanDataClassEdge : UInt32 := 0x00000002

def wwanDataClassUmts : UInt32 := 0x00000004

def wwanDataClassHsdpa : UInt32 := 0x00000008

def wwanDataClassHsupa : UInt32 := 0x00000010

def wwanDataClassLte : UInt32 := 0x00000020

def wwanDataClass5gNsa : UInt32 := 0x00000040

def wwanDataClass5gSa : UInt32 := 0x00000080

def wwanDataClass1xrtt : UInt32 := 0x00010000

def wwanDataClass1xevdo : UInt32 := 0x00020000

def wwanDataClass1xevdoReva : UInt32 := 0x00040000

def wwanDataClass1xevdv : UInt32 := 0x00080000

def wwanDataClass3xrtt : UInt32 := 0x00100000

def wwanDataClass1xevdoRevb : UInt32 := 0x00200000

def wwanDataClassUmb : UInt32 := 0x00400000

def wwanDataClassCustom : UInt32 := 0x80000000

def class2str : List (UInt32 × String) :=
  [(wwanDataClassNone, "UNKNOWN"), (wwanDataClassGprs, "GPRS"), (wwanDataClassEdge, "EDGE"),
    (wwanDataClassUmts, "UMTS"), (wwanDataClassHsdpa, "HSDPA"), (wwanDataClassHsupa, "HSUPA"),
    (wwanDataClassLte, "LTE"), (wwanDataClass5gNsa, "5G_NSA"), (wwanDataClass5gSa, "5G_SA"),
    (wwanDataClass1xrtt, "1XRTT"), (wwanDataClass1xevdo, "1XEVDO"),
    (wwanDataClass1xevdoReva, "1XEVDO_REVA"), (wwanDataClass1xevdv, "1XEVDV"),
    (wwanDataClass3xrtt, "3XRTT"), (wwanDataClass1xevdoRevb, "1XEVDO_REVB"),
    (wwanDataClassUmb, "UMB"), (wwanDataClassCustom, "CUSTOM")]

/-- `wwan_data_class2str` -/
def wwanDataClass2str (cls : UInt32) : String :=
  ((class2str.find? fun entry => entry.1 = cls).map Prod.snd).getD "UNKNOWN"

/-- The classes with an entry of their own in `DataCapList`. -/
def has (dataCapList cls : UInt32) : Bool := dataCapList &&& cls ≠ 0

/-- `DEVICE_CLASS_UNKNOWN`, `DEVICE_CLASS_CDMA` and `DEVICE_CLASS_GSM` -/
inductive DeviceClass where
  | unknown
  | cdma
  | gsm
  deriving DecidableEq

/-! ### The loop -/

/-- The flags of the loop. -/
structure SysFlags where
  /-- `*pPSAttachedState` -/
  psAttachedState : UInt8
  isLte : Bool
  sIsCdma : Bool
  sHdrPersonality : ℕ
  endcAvailableValid : Bool
  endcAvailable : UInt8
  restrictDcnrValid : Bool
  restrictDcnr : UInt8
  pDataCapStr : String
  deriving DecidableEq

/-- The radio that the loop has found. -/
structure SysCap where
  dataCapList : UInt32
  deviceClass : DeviceClass
  deriving DecidableEq

/-- The variables of the loop. -/
structure SysInfo where
  flags : SysFlags
  cap : SysCap
  deriving DecidableEq

def SysInfo.start : SysInfo :=
  ⟨⟨0, false, false, 0, false, 0x00, false, 0x01, "UNKNOW"⟩, ⟨0, .unknown⟩⟩

/-- `*pPSAttachedState = 1` -/
def SysFlags.attach (s : SysFlags) : SysFlags := { s with psAttachedState := 1 }

/-- `s_is_cdma = (0 == is_lte)` -/
def SysFlags.setCdma (s : SysFlags) : SysFlags := { s with sIsCdma := !s.isLte }

/-- `is_lte = 1` and `s_is_cdma = 0` -/
def SysFlags.setLte (s : SysFlags) : SysFlags := { s with isLte := true, sIsCdma := false }

/-- `s_hdr_personality = 0x02`, when the packet domain has been found attached. -/
def SysFlags.setPersonality (s : SysFlags) (v : ℕ → UInt8) : SysFlags :=
  { s with
    sHdrPersonality :=
      if s.psAttachedState ≠ 0 ∧ hdrPersonality v then 0x02 else s.sHdrPersonality }

/-- The `switch`: what a TLV makes of the flags, -/
def flagsStep (s : SysFlags) (kind : SysTlv) (v : ℕ → UInt8) : SysFlags :=
  match kind with
  | .cdma | .hdr => if srvStatus v then s.setCdma else s
  | .lte | .nr5g => if srvStatus v then s.setLte else s
  | .endc => { s with endcAvailableValid := true, endcAvailable := v 0 }
  | .dcnr => { s with restrictDcnrValid := true, restrictDcnr := v 0 }
  | .tdscdma => if srvStatus v then { s with pDataCapStr := "TD-SCDMA" } else s
  | .cdmaInfo => if srvDomain v then s.attach.setCdma else s
  | .hdrInfo => (if srvDomain v then s.attach.setCdma else s).setPersonality v
  | .lteInfo => if srvDomain v then s.attach.setLte else s
  | .gsmInfo | .wcdmaInfo | .tdscdmaInfo | .nr5gInfo => if srvDomain v then s.attach else s
  | .gsm | .wcdma | .other => s

/-- and of the radio. -/
def capStep (s : SysCap) (kind : SysTlv) (v : ℕ → UInt8) : SysCap :=
  if srvStatus v = false then s
  else
    match kind with
    | .cdma =>
        ⟨wwanDataClass1xrtt ||| wwanDataClass1xevdo ||| wwanDataClass1xevdoReva |||
          wwanDataClass1xevdv ||| wwanDataClass1xevdoRevb, .cdma⟩
    | .hdr => ⟨wwanDataClass3xrtt ||| wwanDataClassUmb, .cdma⟩
    | .gsm => ⟨wwanDataClassGprs ||| wwanDataClassEdge, .gsm⟩
    | .wcdma => ⟨wwanDataClassUmts, .gsm⟩
    | .lte => ⟨wwanDataClassLte, .gsm⟩
    | .nr5g => ⟨s.dataCapList ||| wwanDataClass5gSa, .gsm⟩
    | _ => s

def sysInfoStep (s : SysInfo) (type : UInt8) (v : ℕ → UInt8) : SysInfo :=
  ⟨flagsStep s.flags (sysTlv type) v, capStep s.cap (sysTlv type) v⟩

/-- The loop; `remainingLen` has a sign. -/
def sysInfoLoop (m : List UInt8) : ℕ → ℤ → ℕ → SysInfo → Option SysInfo
  | 0, _, _, _ => none
  | fuel + 1, remainingLen, p, s =>
      if remainingLen ≤ 0 then some s
      else
        sysInfoLoop m fuel (remainingLen - (tlvLength m p + qmiTlvHdrSize : ℕ))
          (p + tlvLength m p + qmiTlvHdrSize)
          (sysInfoStep s (tlvType m p) fun i => byteAt m (p + qmiTlvHdrSize + i))

/-! ### What is made of it -/

/-- `DataCapList` behind the loop. -/
def SysInfo.dataCapList (s : SysInfo) : UInt32 :=
  if has s.cap.dataCapList wwanDataClassLte ∧ s.flags.endcAvailableValid ∧
      s.flags.restrictDcnrValid ∧ s.flags.endcAvailable ≠ 0 ∧ s.flags.restrictDcnr = 0 then
    s.cap.dataCapList ||| wwanDataClass5gNsa
  else s.cap.dataCapList

/-- The name of a radio that is CDMA. -/
def cdmaStr (sHdrPersonality : ℕ) (dataCapList : UInt32) (pDataCapStr : String) : String :=
  if sHdrPersonality = 2 then "eHRPD"
  else if has dataCapList wwanDataClass1xevdoRevb then wwanDataClass2str wwanDataClass1xevdoRevb
  else if has dataCapList wwanDataClass1xevdoReva then wwanDataClass2str wwanDataClass1xevdoReva
  else if has dataCapList wwanDataClass1xevdo then wwanDataClass2str wwanDataClass1xevdo
  else if has dataCapList wwanDataClass1xrtt then wwanDataClass2str wwanDataClass1xrtt
  else if has dataCapList wwanDataClass3xrtt then wwanDataClass2str wwanDataClass3xrtt
  else if has dataCapList wwanDataClassUmb then wwanDataClass2str wwanDataClassUmb
  else pDataCapStr

/-- The name of any other radio. -/
def gsmStr (dataCapList : UInt32) (pDataCapStr : String) : String :=
  if has dataCapList wwanDataClass5gSa then wwanDataClass2str wwanDataClass5gSa
  else if has dataCapList wwanDataClass5gNsa then wwanDataClass2str wwanDataClass5gNsa
  else if has dataCapList wwanDataClassLte then wwanDataClass2str wwanDataClassLte
  else if has dataCapList wwanDataClassHsdpa ∧ has dataCapList wwanDataClassHsupa then
    "HSDPA_HSUPA"
  else if has dataCapList wwanDataClassHsdpa then wwanDataClass2str wwanDataClassHsdpa
  else if has dataCapList wwanDataClassHsupa then wwanDataClass2str wwanDataClassHsupa
  else if has dataCapList wwanDataClassUmts then wwanDataClass2str wwanDataClassUmts
  else if has dataCapList wwanDataClassEdge then wwanDataClass2str wwanDataClassEdge
  else if has dataCapList wwanDataClassGprs then wwanDataClass2str wwanDataClassGprs
  else pDataCapStr

/-- The data capability that is reported. -/
def SysInfo.dataCapStr (s : SysInfo) : String :=
  if s.cap.deviceClass = .cdma then
    cdmaStr s.flags.sHdrPersonality s.dataCapList s.flags.pDataCapStr
  else gsmStr s.dataCapList s.flags.pDataCapStr

/-- `s_5g_type`, which has been `WWAN_DATA_CLASS_NONE` in front of the loop. -/
def SysInfo.s5gType (s : SysInfo) : UInt32 :=
  if s.cap.deviceClass = .cdma then wwanDataClassNone
  else if has s.dataCapList wwanDataClass5gSa then wwanDataClass5gSa
  else if has s.dataCapList wwanDataClass5gNsa then wwanDataClass5gNsa
  else wwanDataClassNone

/-- The variables of `QMIThread.c` that the function writes. -/
structure Radio where
  sIsCdma : Bool
  s5gType : UInt32
  sHdrPersonality : ℕ
  deriving DecidableEq

def SysInfo.radio (s : SysInfo) : Radio := ⟨s.flags.sIsCdma, s.s5gType, s.flags.sHdrPersonality⟩

/-- `requestRegistrationState2`: the result, `*pPSAttachedState`, the variables and the data
capability, if it is reported.  Without a result the loop is still under way. -/
def requestRegistrationState2 (a : Answer) (old : Radio) (fuel : ℕ) :
    Option (ℤ × UInt8 × Radio × Option String) :=
  match qmiRspCheck a with
  | .error err => some (err, 0, old, none)
  | .ok m =>
      (sysInfoLoop m fuel (qmuxMsgHdrLength m) firstTLV .start).map fun s =>
        (0, s.flags.psAttachedState, s.radio, some s.dataCapStr)

/-! ### A list of TLVs -/

/-- The bytes that the function reads of the value of a TLV. -/
def sysTlvSize : SysTlv → ℕ
  | .cdma | .hdr | .gsm | .wcdma | .lte | .nr5g | .endc | .dcnr | .tdscdma => 1
  | .cdmaInfo | .gsmInfo | .wcdmaInfo | .lteInfo | .tdscdmaInfo | .nr5gInfo => 2
  | .hdrInfo => 12
  | .other => 0

/-- The value is long enough for its structure. -/
def LongEnough (f : Field) : Prop := sysTlvSize (sysTlv f.type) ≤ f.value.length

instance (f : Field) : Decidable (LongEnough f) := inferInstanceAs (Decidable (_ ≤ _))

/-- A response without error that is a list of TLVs. -/
structure IsSysInfo (m : List UInt8) (fs : List Field) : Prop where
  result : qmuxResult m = 0 ∧ qmuxError m = 0
  tlvs : m.drop firstTLV = encodeAll fs
  length : qmuxMsgHdrLength m = (encodeAll fs).length
  size : (encodeAll fs).length < 65536
  long : ∀ f ∈ fs, LongEnough f

/-- The `switch` on a TLV that has been written. -/
def see (s : SysInfo) (f : Field) : SysInfo := sysInfoStep s f.type (byteAt f.value)

/-- The flags and the radio do not look at bytes behind the structure. -/
theorem sysInfoStep_congr {s : SysInfo} {type : UInt8} {v w : ℕ → UInt8}
    (h : ∀ i, i < sysTlvSize (sysTlv type) → v i = w i) :
    sysInfoStep s type v = sysInfoStep s type w := by
  rw [sysInfoStep, sysInfoStep]
  cases hkind : sysTlv type with
  | other => simp [flagsStep, capStep]
  | hdrInfo =>
      rw [hkind] at h
      have hdomain : srvDomain v = srvDomain w := by
        rw [srvDomain, srvDomain, h 0 (by decide), h 1 (by decide)]
      have hpersonality : hdrPersonality v = hdrPersonality w := by
        rw [hdrPersonality, hdrPersonality, h 10 (by decide), h 11 (by decide)]
      simp only [flagsStep, capStep, hdomain, SysFlags.setPersonality, hpersonality, ite_self]
  | cdmaInfo | gsmInfo | wcdmaInfo | lteInfo | tdscdmaInfo | nr5gInfo =>
      rw [hkind] at h
      have hdomain : srvDomain v = srvDomain w := by
        rw [srvDomain, srvDomain, h 0 (by decide), h 1 (by decide)]
      simp only [flagsStep, capStep, hdomain, ite_self]
  | cdma | hdr | gsm | wcdma | lte | nr5g | endc | dcnr | tdscdma =>
      rw [hkind] at h
      have hstatus : srvStatus v = srvStatus w := by
        rw [srvStatus, srvStatus, h 0 (by decide)]
      simp only [flagsStep, capStep, hstatus, h 0 (by decide)]

/-- **On a list of TLVs the loop is a fold**, and it comes to an end. -/
theorem sysInfoLoop_encodeAll {m : List UInt8} {fs : List Field} {p fuel : ℕ} {s : SysInfo}
    (h : m.drop p = encodeAll fs) (hfits : ∀ f ∈ fs, f.Fits) (hlong : ∀ f ∈ fs, LongEnough f)
    (hfuel : fs.length < fuel) :
    sysInfoLoop m fuel (encodeAll fs).length p s = some (fs.foldl see s) := by
  induction fs generalizing p fuel s with
  | nil =>
      obtain ⟨fuel, rfl⟩ : ∃ k, fuel = k + 1 := ⟨fuel - 1, by omega⟩
      rw [sysInfoLoop, encodeAll_nil, if_pos (by decide)]
      rfl
  | cons f fs ih =>
      obtain ⟨fuel, rfl⟩ : ∃ k, fuel = k + 1 := ⟨fuel - 1, by omega⟩
      have hf := hfits f (List.mem_cons_self ..)
      rw [encodeAll_cons] at h
      have htype := tlvType_eq h
      have hlen := tlvLength_eq hf h
      have hsize : f.size = f.value.length + qmiTlvHdrSize := Nat.add_comm ..
      have hhdr : qmiTlvHdrSize = 3 := rfl
      have htotal : (encodeAll (f :: fs)).length = f.size + (encodeAll fs).length := by
        rw [encodeAll_cons, List.length_append, encode_length]
      have hnext : m.drop (p + f.value.length + qmiTlvHdrSize) = encodeAll fs := by
        have hplace : p + f.value.length + qmiTlvHdrSize = p + f.size := by omega
        rw [hplace]
        exact drop_encode h
      have hremaining : ((encodeAll (f :: fs)).length : ℤ) - (f.value.length + qmiTlvHdrSize : ℕ) =
          (encodeAll fs).length := by omega
      have hvalue : ∀ i, i < sysTlvSize (sysTlv f.type) →
          byteAt m (p + qmiTlvHdrSize + i) = byteAt f.value i := by
        intro i hi
        have hlt : i < f.value.length :=
          Nat.lt_of_lt_of_le hi (hlong f (List.mem_cons_self ..))
        have hfield : byteAt (encode f ++ encodeAll fs) (i + 3) = byteAt f.value i :=
          (byteAt_append_left (by rw [encode_length, hsize, hhdr]; omega)).trans rfl
        have hbyte := byteAt_drop m p (i + 3)
        have hplace : p + qmiTlvHdrSize + i = p + (i + 3) := by omega
        rw [hplace, ← hbyte, h, hfield]
      rw [sysInfoLoop, if_neg (by rw [htotal]; omega), htype, hlen, hremaining,
        sysInfoStep_congr hvalue]
      exact ih hnext (fun g hg => hfits g (List.mem_cons_of_mem _ hg))
        (fun g hg => hlong g (List.mem_cons_of_mem _ hg)) (by simp at hfuel; omega)

theorem IsSysInfo.run {m : List UInt8} {fs : List Field} (h : IsSysInfo m fs) (old : Radio)
    {fuel : ℕ} (hfuel : fs.length < fuel) :
    requestRegistrationState2 (.response m) old fuel =
      some (0, (fs.foldl see .start).flags.psAttachedState, (fs.foldl see .start).radio,
        some (fs.foldl see .start).dataCapStr) := by
  have hcheck : qmiRspCheck (.response m) = .ok m := by
    rw [qmiRspCheck, if_neg (by have := h.result; omega)]
  rw [requestRegistrationState2, hcheck]
  simp only
  rw [h.length, sysInfoLoop_encodeAll h.tlvs (fits_of_encodeAll_lt h.size) h.long hfuel]
  rfl

/-! ### The flags -/

/-- A system-info TLV that is valid and has the bit of the packet domain. -/
def PsDomain (f : Field) : Prop :=
  f.type ∈ [0x15, 0x16, 0x17, 0x18, 0x19, 0x25, 0x4B] ∧ srvDomain (byteAt f.value) = true

/-- A CDMA or HDR TLV that indicates service. -/
def CdmaService (f : Field) : Prop :=
  (f.type ∈ [0x10, 0x11] ∧ srvStatus (byteAt f.value) = true) ∨
    (f.type ∈ [0x15, 0x16] ∧ srvDomain (byteAt f.value) = true)

/-- An LTE or NR TLV that does. -/
def LteService (f : Field) : Prop :=
  (f.type ∈ [0x14, 0x4A] ∧ srvStatus (byteAt f.value) = true) ∨
    (f.type = 0x19 ∧ srvDomain (byteAt f.value) = true)

instance (f : Field) : Decidable (PsDomain f) := inferInstanceAs (Decidable (_ ∧ _))

instance (f : Field) : Decidable (CdmaService f) := inferInstanceAs (Decidable (_ ∨ _))

instance (f : Field) : Decidable (LteService f) := inferInstanceAs (Decidable (_ ∨ _))

/-- The type of a TLV that has a case of its own. -/
def SysTlv.code : SysTlv → UInt8
  | .cdma => 0x10
  | .hdr => 0x11
  | .gsm => 0x12
  | .wcdma => 0x13
  | .lte => 0x14
  | .nr5g => 0x4A
  | .nr5gInfo => 0x4B
  | .endc => 0x4E
  | .dcnr => 0x4F
  | .tdscdma => 0x24
  | .cdmaInfo => 0x15
  | .hdrInfo => 0x16
  | .gsmInfo => 0x17
  | .wcdmaInfo => 0x18
  | .lteInfo => 0x19
  | .tdscdmaInfo => 0x25
  | .other => 0

theorem sysTlv_code {kind : SysTlv} (h : kind ≠ .other) : sysTlv kind.code = kind := by
  cases kind with
  | other => exact absurd rfl h
  | _ => rfl

/-- A byte is one of 256. -/
theorem forall_uint8 {P : UInt8 → Prop} (h : ∀ n : Fin 256, P (UInt8.ofNat n)) (b : UInt8) :
    P b := by
  have hb := h ⟨b.toNat, b.toNat_lt⟩
  rwa [UInt8.ofNat_toNat] at hb

theorem code_sysTlv {type : UInt8} (h : sysTlv type ≠ .other) : (sysTlv type).code = type :=
  forall_uint8 (P := fun type => sysTlv type ≠ .other → (sysTlv type).code = type)
    (by decide +kernel) type h

/-- The case of a TLV says what its type is. -/
theorem sysTlv_eq_iff {type : UInt8} {kind : SysTlv} (h : kind ≠ .other) :
    sysTlv type = kind ↔ type = kind.code := by
  constructor
  · rintro rfl
    exact (code_sysTlv h).symm
  · rintro rfl
    exact sysTlv_code h

/-- The types of some cases. -/
theorem mem_codes_iff {kinds : List SysTlv} (h : .other ∉ kinds) {type : UInt8} :
    type ∈ kinds.map SysTlv.code ↔ sysTlv type ∈ kinds := by
  rw [List.mem_map]
  constructor
  · rintro ⟨kind, hkind, rfl⟩
    rwa [sysTlv_code (ne_of_mem_of_not_mem hkind h)]
  · intro hkind
    exact ⟨sysTlv type, hkind, code_sysTlv (ne_of_mem_of_not_mem hkind h)⟩

/-- What the domains and the service of a radio mean, by the case of its TLV. -/
def SysTlv.psDomain (kind : SysTlv) (domain : Bool) : Bool :=
  match kind with
  | .cdmaInfo | .hdrInfo | .gsmInfo | .wcdmaInfo | .lteInfo | .tdscdmaInfo | .nr5gInfo => domain
  | _ => false

def SysTlv.cdmaService (kind : SysTlv) (status domain : Bool) : Bool :=
  match kind with
  | .cdma | .hdr => status
  | .cdmaInfo | .hdrInfo => domain
  | _ => false

def SysTlv.lteService (kind : SysTlv) (status domain : Bool) : Bool :=
  match kind with
  | .lte | .nr5g => status
  | .lteInfo => domain
  | _ => false

theorem SysTlv.psDomain_iff (kind : SysTlv) (domain : Bool) : kind.psDomain domain = true ↔
    kind ∈ [.cdmaInfo, .hdrInfo, .gsmInfo, .wcdmaInfo, .lteInfo, .tdscdmaInfo, .nr5gInfo] ∧
      domain = true := by
  cases kind <;> cases domain <;> decide

theorem SysTlv.cdmaService_iff (kind : SysTlv) (status domain : Bool) :
    kind.cdmaService status domain = true ↔
      (kind ∈ [.cdma, .hdr] ∧ status = true) ∨ (kind ∈ [.cdmaInfo, .hdrInfo] ∧ domain = true) := by
  cases kind <;> cases status <;> cases domain <;> decide

theorem SysTlv.lteService_iff (kind : SysTlv) (status domain : Bool) :
    kind.lteService status domain = true ↔
      (kind ∈ [.lte, .nr5g] ∧ status = true) ∨ (kind = .lteInfo ∧ domain = true) := by
  cases kind <;> cases status <;> cases domain <;> decide

theorem psDomain_iff (f : Field) :
    PsDomain f ↔ (sysTlv f.type).psDomain (srvDomain (byteAt f.value)) = true := by
  rw [SysTlv.psDomain_iff, ← mem_codes_iff (by decide)]
  exact Iff.rfl

theorem cdmaService_iff (f : Field) :
    CdmaService f ↔ (sysTlv f.type).cdmaService (srvStatus (byteAt f.value))
      (srvDomain (byteAt f.value)) = true := by
  rw [SysTlv.cdmaService_iff, ← mem_codes_iff (by decide), ← mem_codes_iff (by decide)]
  exact Iff.rfl

theorem lteService_iff (f : Field) :
    LteService f ↔ (sysTlv f.type).lteService (srvStatus (byteAt f.value))
      (srvDomain (byteAt f.value)) = true := by
  rw [SysTlv.lteService_iff, ← mem_codes_iff (by decide), sysTlv_eq_iff (by decide)]
  exact Iff.rfl

section

variable (s : SysFlags) (kind : SysTlv) (v : ℕ → UInt8)

theorem flagsStep_psAttachedState : (flagsStep s kind v).psAttachedState =
    if kind.psDomain (srvDomain v) = true then 1 else s.psAttachedState := by
  cases hstatus : srvStatus v <;> cases hdomain : srvDomain v <;> cases kind <;>
    simp [flagsStep, SysTlv.psDomain, SysFlags.attach, SysFlags.setCdma, SysFlags.setLte,
      SysFlags.setPersonality, hstatus, hdomain]

theorem flagsStep_isLte : (flagsStep s kind v).isLte =
    (s.isLte || kind.lteService (srvStatus v) (srvDomain v)) := by
  cases hstatus : srvStatus v <;> cases hdomain : srvDomain v <;> cases kind <;>
    simp [flagsStep, SysTlv.lteService, SysFlags.attach, SysFlags.setCdma, SysFlags.setLte,
      SysFlags.setPersonality, hstatus, hdomain]

theorem flagsStep_sIsCdma : (flagsStep s kind v).sIsCdma =
    if kind.lteService (srvStatus v) (srvDomain v) = true then false
    else if kind.cdmaService (srvStatus v) (srvDomain v) = true then !s.isLte
    else s.sIsCdma := by
  cases hstatus : srvStatus v <;> cases hdomain : srvDomain v <;> cases kind <;>
    simp [flagsStep, SysTlv.lteService, SysTlv.cdmaService, SysFlags.attach, SysFlags.setCdma,
      SysFlags.setLte, SysFlags.setPersonality, hstatus, hdomain]

end

/-- The two flags, and `is_lte`, after the TLVs `seen`. -/
structure Attaching (s : SysFlags) (seen : List Field) : Prop where
  ps : s.psAttachedState = 1 ↔ ∃ f ∈ seen, PsDomain f
  lte : s.isLte = true ↔ ∃ f ∈ seen, LteService f
  cdma : s.sIsCdma = true ↔ (∃ f ∈ seen, CdmaService f) ∧ ¬ ∃ f ∈ seen, LteService f

theorem exists_mem_concat {P : Field → Prop} {seen : List Field} {f : Field} :
    (∃ g ∈ seen ++ [f], P g) ↔ (∃ g ∈ seen, P g) ∨ P f := by
  simp only [List.mem_append, List.mem_singleton, or_and_right, exists_or, exists_eq_left]

/-- **What one TLV makes of the flags.** -/
theorem Attaching.step {s : SysInfo} {seen : List Field} (h : Attaching s.flags seen) (f : Field) :
    Attaching (see s f).flags (seen ++ [f]) := by
  have hflags : (see s f).flags = flagsStep s.flags (sysTlv f.type) (byteAt f.value) := rfl
  refine ⟨?_, ?_, ?_⟩
  · rw [hflags, flagsStep_psAttachedState, exists_mem_concat, ← h.ps, psDomain_iff]
    split
    · rename_i hdomain
      simp [hdomain]
    · rename_i hdomain
      simp [hdomain]
  · rw [hflags, flagsStep_isLte, exists_mem_concat, ← h.lte, lteService_iff, Bool.or_eq_true]
  · rw [hflags, flagsStep_sIsCdma, exists_mem_concat, exists_mem_concat, lteService_iff,
      cdmaService_iff]
    split
    · rename_i hlte
      simp [hlte]
    · rename_i hlte
      -- nothing of what LTE has undone comes back
      split
      · rename_i hcdma
        rw [Bool.not_eq_true', ← Bool.not_eq_true, h.lte]
        simp [hlte, hcdma]
      · rename_i hcdma
        rw [h.cdma]
        simp [hlte, hcdma]

theorem attaching_start : Attaching SysInfo.start.flags [] :=
  ⟨by decide, by decide, by decide⟩

theorem attaching_final (fs : List Field) : Attaching (fs.foldl see .start).flags fs :=
  Fold.invariant (I := fun s : SysInfo => Attaching s.flags) attaching_start
    (fun _ _ f h => h.step f) fs

/-- **What the flags are at the end**: attached when a system info has the packet domain, and CDMA
when a CDMA or HDR TLV gives service and no LTE or NR TLV does.  The loop ends, and another order of
the TLVs gives the same. -/
theorem requestRegistrationState2_flags {m : List UInt8} {fs : List Field} (h : IsSysInfo m fs)
    (old : Radio) {fuel : ℕ} (hfuel : fs.length < fuel) :
    ∃ psAttachedState radio text,
      requestRegistrationState2 (.response m) old fuel =
        some (0, psAttachedState, radio, some text) ∧
      (psAttachedState = 1 ↔ ∃ f ∈ fs, PsDomain f) ∧
      (radio.sIsCdma = true ↔ (∃ f ∈ fs, CdmaService f) ∧ ¬ ∃ f ∈ fs, LteService f) ∧
      ∀ (fs' : List Field) (m' : List UInt8), fs'.Perm fs → IsSysInfo m' fs' →
        ∃ psAttachedState' radio' text',
          requestRegistrationState2 (.response m') old fuel =
            some (0, psAttachedState', radio', some text') ∧
          (psAttachedState' = 1 ↔ psAttachedState = 1) ∧ radio'.sIsCdma = radio.sIsCdma := by
  have hflags := attaching_final fs
  refine ⟨_, _, _, h.run old hfuel, hflags.ps, hflags.cdma, fun fs' m' hperm h' => ?_⟩
  have hflags' := attaching_final fs'
  have hsame : ∀ P : Field → Prop, (∃ f ∈ fs', P f) ↔ ∃ f ∈ fs, P f := fun P =>
    exists_congr fun f => and_congr_left fun _ => hperm.mem_iff
  refine ⟨_, _, _, h'.run old (by rw [hperm.length_eq]; exact hfuel), ?_, ?_⟩
  · rw [hflags'.ps, hflags.ps]
    exact hsame _
  · rw [Bool.eq_iff_iff, SysInfo.radio, SysInfo.radio, hflags'.cdma, hflags.cdma]
    rw [hsame, hsame]

/-! ### Responses -/

/-- The TLV of the result, without error. -/
def resultTlv : Field := ⟨0x02, [0, 0, 0, 0]⟩

/-- A `QMINAS_GET_SYS_INFO` response with these TLVs behind the result. -/
def sysInfoResp (fs : List Field) : List UInt8 :=
  0x01 :: le16 ((encodeAll (resultTlv :: fs)).length + 12) ++
    [0x80, 0x03, 1, 0x02, 1, 0, 0x4D, 0x00] ++ le16 (encodeAll (resultTlv :: fs)).length ++
      encodeAll (resultTlv :: fs)

theorem isSysInfo_sysInfoResp {fs : List Field}
    (hsize : (encodeAll (resultTlv :: fs)).length < 65536) (hlong : ∀ f ∈ fs, LongEnough f) :
    IsSysInfo (sysInfoResp fs) (resultTlv :: fs) := by
  have hlength : qmuxMsgHdrLength (sysInfoResp fs) =
      le16At (le16 (encodeAll (resultTlv :: fs)).length ++ encodeAll (resultTlv :: fs)) 0 := rfl
  refine ⟨⟨rfl, rfl⟩, rfl, ?_, hsize, ?_⟩
  · rw [hlength, le16At_le16, Nat.mod_eq_of_lt hsize]
  · intro f hf
    rcases List.mem_cons.1 hf with rfl | hf
    · decide
    · exact hlong f hf

/-- HDR in service, with the packet domain. -/
theorem requestRegistrationState2_flags_hdr :
    ∃ psAttachedState radio text,
      requestRegistrationState2
          (.response (sysInfoResp [⟨0x11, [2, 2, 1]⟩, ⟨0x77, []⟩, ⟨0x15, [1, 3]⟩]))
          ⟨false, 0, 0⟩ 5 = some (0, psAttachedState, radio, some text) ∧
      psAttachedState = 1 ∧ radio.sIsCdma = true := by
  obtain ⟨ps, radio, text, hrun, hps, hcdma, -⟩ :=
    @requestRegistrationState2_flags
      (sysInfoResp [⟨0x11, [2, 2, 1]⟩, ⟨0x77, []⟩, ⟨0x15, [1, 3]⟩]) _
      (isSysInfo_sysInfoResp (by decide) (by decide)) ⟨false, 0, 0⟩ 5 (by decide)
  exact ⟨ps, radio, text, hrun, hps.2 (by decide), hcdma.2 (by decide)⟩

end QuectelCM

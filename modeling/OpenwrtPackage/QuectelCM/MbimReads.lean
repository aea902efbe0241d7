/-
**What the MBIM functions look at.**

`mbim_recv_command` and `mbim_ip_config` go by the lengths and the offsets that stand in a message.
The size of what has been received is a parameter of the one, which does not use it, and the other
is not told it.  Here both are programs that read the memory in which the message lies, from the
address 0 on, with what they print of it.

* `QuectelCM.mbimDump` — `mbim_dump`;
* `QuectelCM.mbimRecvCommandReads` — `mbim_recv_command`;
* `QuectelCM.mbimDumpIpconfig`, `QuectelCM.mbimIpConfigReads` — `mbim_dump_ipconfig`, and
  `mbim_ip_config` once it has an answer;
* `QuectelCM.run_mbimRecvCommandReads`, `QuectelCM.run_mbimIpConfigReads` — **the values are those
  of the functions on messages**.
-/
import OpenwrtPackage.Lib.Reads
import OpenwrtPackage.QuectelCM.IpConfig
import OpenwrtPackage.QuectelCM.TransactionIds

set_option relaxedAutoImplicit false
set_option autoImplicit false

namespace QuectelCM

open Bytes Memory Host
open Reads (run look gather times optional)

/-! ### Constants -/

def mbimCommandDone : UInt32 := 0x80000003

def mbimCidSignalState : UInt32 := 11

def mbimCidIpConfiguration : UInt32 := 15

def mbimCidCmdTypeQuery : UInt32 := 0

/-- The types of the messages that are a header and one field: `MBIM_OPEN_MSG`, `MBIM_OPEN_DONE`,
`MBIM_CLOSE_DONE` and `MBIM_FUNCTION_ERROR_MSG`. -/
def oneFieldTypes : List UInt32 := [mbimOpenMsg, 0x80000001, 0x80000002, 0x80000004]

/-- What the log depends on. -/
structure MbimLog where
  /-- `mbim_verbose` -/
  mbimVerbose : Bool
  /-- the `malloc` of `mbim_dump` has succeeded -/
  tmp : Bool

/-! ### Fields -/

/-- A field of a message. -/
def readField (e : Endian) (p : ℕ) : Reads UInt8 UInt32 :=
  (fun m => le32toh e (number32 e m)) <$> Reads.bytes p 4

/-- A field that is not converted. -/
def readRaw (e : Endian) (p : ℕ) : Reads UInt8 UInt32 := number32 e <$> Reads.bytes p 4

/-- `!memcmp(….DeviceServiceId.uuid, str2uuid(UUID_BASIC_CONNECT), 16)` -/
def readBasicConnect : Reads UInt8 Bool :=
  (fun uuid => decide (uuid = uuidBasicConnect)) <$> Reads.bytes deviceServiceIdAt 16

@[simp] theorem run_readField (e : Endian) (mem : ℕ → UInt8) (p : ℕ) :
    run mem (readField e p) = field32 mem p := by
  rw [readField, Reads.run_map, Reads.run_bytes, le32toh_number32, field32]

@[simp] theorem run_readRaw (e : Endian) (mem : ℕ → UInt8) (p : ℕ) :
    run mem (readRaw e p) = load32 e mem p := by
  rw [readRaw, Reads.run_map, Reads.run_bytes, load32]

@[simp] theorem run_readBasicConnect (mem : ℕ → UInt8) :
    run mem readBasicConnect = decide (load mem deviceServiceIdAt 16 = uuidBasicConnect) := by
  rw [readBasicConnect, Reads.run_map, Reads.run_bytes]

/-! ### `mbim_dump` -/

/-- `mbim_get_segment` -/
def mbimGetSegment (pMsg : ℕ) (offset len : UInt32) : Reads UInt8 (List UInt8) :=
  gather ((List.range (len.toNat / 2)).map fun idx =>
    pMsg + (offset + UInt32.ofNat (idx * 2)).toNat)

/-- A segment whose offset stands at `p`, and its length behind it. -/
def mbimDumpSegment (e : Endian) (pInfo p : ℕ) : Reads UInt8 Unit := do
  let offset ← readField e p
  let length ← readField e (p + 4)
  (fun _ => ()) <$> mbimGetSegment pInfo offset length

/-- `mbim_dump_header` -/
def mbimDumpHeader : Reads UInt8 Unit := look 0 12

/-- `mbim_dump_command_msg`: the service, the CID, the type of the command and the length. -/
def mbimDumpCommandMsg : Reads UInt8 Unit := look deviceServiceIdAt 28

/-- `mbim_dump_command_done`: the service, the CID, the status and the length. -/
def mbimDumpCommandDone : Reads UInt8 Unit := look deviceServiceIdAt 28

/-- `mbim_dump_indicate_msg`: the service, the CID and the length. -/
def mbimDumpIndicateMsg : Reads UInt8 Unit := look deviceServiceIdAt 24

/-- `mbim_dump_connect` -/
def mbimDumpConnect (pInfo : ℕ) : Reads UInt8 Unit := look pInfo 36

/-- `mbim_dump_signal_state` -/
def mbimDumpSignalState (pInfo : ℕ) : Reads UInt8 Unit := look pInfo 20

/-- `mbim_dump_packet_service` -/
def mbimDumpPacketService (pInfo : ℕ) : Reads UInt8 Unit := look pInfo 28

/-- `mbim_dump_subscriber_status`: the two ids, and as many times as there are telephone numbers the
first of them. -/
def mbimDumpSubscriberStatus (e : Endian) (pInfo : ℕ) : Reads UInt8 Unit := do
  look pInfo 4
  mbimDumpSegment e pInfo (pInfo + 12)
  mbimDumpSegment e pInfo (pInfo + 4)
  let elementCount ← readField e (pInfo + 24)
  times elementCount.toNat (mbimDumpSegment e pInfo (pInfo + 28))

/-- `mbim_dump_regiester_status` -/
def mbimDumpRegiesterStatus (pInfo : ℕ) : Reads UInt8 Unit := look pInfo 12

/-- The information that an answer and an indication have in common. -/
def mbimDumpInfo (e : Endian) (cid : UInt32) (pInfo : ℕ) : Reads UInt8 Unit :=
  if cid = mbimCidConnect then mbimDumpConnect pInfo
  else if cid = mbimCidPacketService then mbimDumpPacketService pInfo
  else if cid = mbimCidSubscriberReadyStatus then mbimDumpSubscriberStatus e pInfo
  else if cid = mbimCidRegisterState then mbimDumpRegiesterStatus pInfo
  else pure ()

/-- The information of an indication. -/
def mbimDumpIndInfo (e : Endian) (cid : UInt32) (pInfo : ℕ) : Reads UInt8 Unit :=
  if cid = mbimCidSignalState then mbimDumpSignalState pInfo else mbimDumpInfo e cid pInfo

/-- An information buffer that is not empty; its length stands before it. -/
def mbimDumpBuffer (e : Endian) (lengthAt : ℕ) (dump : UInt32 → ℕ → Reads UInt8 Unit) :
    Reads UInt8 Unit := do
  let informationBufferLength ← readField e lengthAt
  Reads.when (informationBufferLength ≠ 0) do
    let basicConnect ← readBasicConnect
    Reads.when basicConnect do
      let cid ← readField e cidAt
      dump cid (lengthAt + 4)

/-- The session that a request is about. -/
def mbimDumpSession (e : Endian) : Reads UInt8 Unit := do
  let basicConnect ← readBasicConnect
  Reads.when basicConnect do
    let cid ← readField e cidAt
    Reads.when (cid = mbimCidConnect ∨ cid = mbimCidIpConfiguration) (look commandBufferAt 4)

/-- What `mbim_dump` prints behind the header. -/
def mbimDumpContents (e : Endian) (type : UInt32) : Reads UInt8 Unit :=
  if type ∈ oneFieldTypes then look 12 4
  else if type = mbimCommandMsg then do
    mbimDumpCommandMsg
    mbimDumpSession e
  else if type = mbimCommandDone then do
    mbimDumpCommandDone
    mbimDumpBuffer e 44 (mbimDumpInfo e)
  else if type = mbimIndicateStatusMsg then do
    mbimDumpIndicateMsg
    mbimDumpBuffer e 40 (mbimDumpIndInfo e)
  else pure ()

/-- The message in hexadecimal. -/
def mbimDumpBytes (e : Endian) : Reads UInt8 Unit := do
  let length ← readField e 4
  look 0 (min length.toNat 4096)

/-- `mbim_dump`; the direction is found out in any case. -/
def mbimDump (e : Endian) (d : MbimLog) : Reads UInt8 Unit := do
  let type ← readField e 0
  Reads.when d.mbimVerbose do
    Reads.when d.tmp (mbimDumpBytes e)
    mbimDumpHeader
    mbimDumpContents e type

/-! ### `mbim_recv_command` -/

/-- The request that is pending has the transaction id of the message. -/
def readAnswers (e : Endian) (r : MbimReader) : Reads UInt8 Bool :=
  match r.mbimPRequest with
  | none => pure false
  | some pRequest => do
      let transactionId ← readField e transactionIdAt
      pure (decide (le32toh e (load32 e pRequest transactionIdAt) = transactionId))

/-- The indications of the basic connect service. -/
def indicateReads (e : Endian) (r : MbimReader) : Reads UInt8 (List ReaderAction) := do
  let cid ← readField e cidAt
  let pInfo := informationBufferAt
  if cid = mbimCidSubscriberReadyStatus then do
    let readyState ← readField e pInfo
    pure (eventIf (r.oldReadyState ≠ readyState) .voiceNetworkStateChanged)
  else if cid = mbimCidRegisterState then do
    let registerState ← readField e (pInfo + 4)
    pure (eventIf (r.oldRegisterState ≠ registerState) .voiceNetworkStateChanged)
  else if cid = mbimCidPacketService then do
    let state ← readField e (pInfo + 4)
    pure (eventIf (r.oldPacketServiceState ≠ state) .voiceNetworkStateChanged)
  else if cid = mbimCidConnect then do
    let sessionId ← readRaw e pInfo
    if sessionId = UInt32.ofInt r.mbimSessionID then do
      let state ← readField e (pInfo + 4)
      pure (eventIf (r.oldActivationState ≠ state) .dataCallListChanged)
    else pure []
  else pure []

/-- An answer is copied, when there is memory for it. -/
def copyResponse (e : Endian) (alloc : Bool) : Reads UInt8 (List ReaderAction) := do
  let length ← readField e 4
  let copy ← optional alloc (Reads.bytes 0 length.toNat)
  pure ((copy.elim [] fun bs => [.response bs]) ++ [.signal])

/-- `mbim_recv_command` with a message. -/
def mbimRecvCommandReads (e : Endian) (d : MbimLog) (r : MbimReader) (alloc : Bool) :
    Reads UInt8 (List ReaderAction) := do
  mbimDump e d
  let answers ← readAnswers e r
  if answers then copyResponse e alloc
  else do
    let type ← readField e 0
    if type = mbimIndicateStatusMsg then do
      let basicConnect ← readBasicConnect
      if basicConnect then indicateReads e r else pure []
    else pure []

/-! ### `mbim_ip_config` -/

/-- Where the fields of a family stand in `MBIM_IP_CONFIGURATION_INFO_T`, and how many bytes an
address has. -/
structure MbimIpLayout where
  configurationAvailable : ℕ
  addressOffset : ℕ
  gatewayOffset : ℕ
  dnsServerCount : ℕ
  dnsServerOffset : ℕ
  mtu : ℕ
  size : ℕ

/-- `pInfo->IPv4…` -/
def mbimIpv4Layout : MbimIpLayout := ⟨4, 16, 28, 36, 40, 52, 4⟩

/-- `pInfo->IPv6…` -/
def mbimIpv6Layout : MbimIpLayout := ⟨8, 24, 32, 44, 48, 56, 16⟩

/-- What `mbim_ip_config` takes from the elements of a family. -/
structure MbimIpElements where
  prefixOf : UInt8
  address : List UInt8
  gw : Option (List UInt8)
  dns1 : Option (List UInt8)
  dns2 : Option (List UInt8)
  mtu : Option UInt32

/-- An address whose offset stands at `p`. -/
def readAddress (e : Endian) (pInfo p size : ℕ) : Reads UInt8 (List UInt8) := do
  let offset ← readField e (pInfo + p)
  Reads.bytes (pInfo + offset.toNat) size

/-- `pAddress`: the prefix, and the address behind it. -/
def readElement (e : Endian) (l : MbimIpLayout) (pInfo : ℕ) : Reads UInt8 (UInt8 × List UInt8) := do
  let offset ← readField e (pInfo + l.addressOffset)
  let prefixLength ← readField e (pInfo + offset.toNat)
  let address ← Reads.bytes (pInfo + offset.toNat + 4) l.size
  pure (prefixLength.toUInt8, address)

/-- The DNS servers; `second` is what is looked at of the second one. -/
def readServers {α : Type} (e : Endian) (l : MbimIpLayout) (pInfo : ℕ)
    (second : ℕ → Reads UInt8 α) : Reads UInt8 (List UInt8 × Option α) := do
  let offset ← readField e (pInfo + l.dnsServerOffset)
  let dns1 ← Reads.bytes (pInfo + offset.toNat) l.size
  let dnsServerCount ← readField e (pInfo + l.dnsServerCount)
  let dns2 ← optional (dnsServerCount = 2) (second (pInfo + offset.toNat + l.size))
  pure (dns1, dns2)

/-- The elements of a family, with `ConfigurationAvailable`. -/
def readElements (e : Endian) (l : MbimIpLayout) (pInfo : ℕ) (available : UInt32) :
    Reads UInt8 MbimIpElements := do
  let element ← readElement e l pInfo
  let gw ← optional (available &&& 0x2 ≠ 0) (readAddress e pInfo l.gatewayOffset l.size)
  let dns ← optional (available &&& 0x4 ≠ 0)
    (readServers e l pInfo fun dns2 => Reads.bytes dns2 l.size)
  let mtu ← optional (available &&& 0x8 ≠ 0) (readField e (pInfo + l.mtu))
  pure ⟨element.1, element.2, gw, dns.map Prod.fst, dns.bind Prod.snd, mtu⟩

/-- What `mbim_dump_ipconfig` prints of a family: the servers when there is an address or a
gateway. -/
def dumpFamily (e : Endian) (l : MbimIpLayout) (pInfo : ℕ) (second : ℕ → Reads UInt8 Unit) :
    Reads UInt8 Unit := do
  let available ← readField e (pInfo + l.configurationAvailable)
  Reads.when (available &&& 0x1 ≠ 0) ((fun _ => ()) <$> readElement e l pInfo)
  Reads.when (available &&& 0x2 ≠ 0)
    ((fun _ => ()) <$> readAddress e pInfo l.gatewayOffset l.size)
  Reads.when (available &&& 0x3 ≠ 0) ((fun _ => ()) <$> readServers e l pInfo second)
  look (pInfo + l.mtu) 4

/-- `mbim_dump_ipconfig`; of the second IPv6 server it leaves out the second four bytes. -/
def mbimDumpIpconfig (e : Endian) (pInfo : ℕ) : Reads UInt8 Unit := do
  look pInfo 28
  dumpFamily e mbimIpv4Layout pInfo fun dns2 => look dns2 4
  dumpFamily e mbimIpv6Layout pInfo fun dns2 => do
    look dns2 4
    look (dns2 + 8) 8

/-- `mbim2qmi_ipv4addr(*(uint32_t *)p)` on a host -/
def mbimAddrOn (e : Endian) (bs : List UInt8) : UInt32 := mbim2qmiIpv4addr (number32 e bs)

/-- The IPv4 part of the profile. -/
def MbimIpElements.ipv4 (e : Endian) (i : MbimIpElements) (mtu : UInt32) (ipv4 : Ipv4) : Ipv4 :=
  { address := mbimAddrOn e i.address
    gateway := i.gw.elim ipv4.gateway (mbimAddrOn e)
    subnetMask := mbim2qmiIpv4addr (prefixMask i.prefixOf)
    dnsPrimary := i.dns1.elim ipv4.dnsPrimary (mbimAddrOn e)
    dnsSecondary := i.dns2.elim ipv4.dnsSecondary (mbimAddrOn e)
    mtu := mbim2qmiIpv4addr mtu }

/-- The IPv6 part of the profile. -/
def MbimIpElements.ipv6 (i : MbimIpElements) (mtu : UInt32) (ipv6 : Ipv6) : Ipv6 :=
  { address := i.address
    gateway := i.gw.elim ipv6.gateway id
    dnsPrimary := i.dns1.elim ipv6.dnsPrimary id
    dnsSecondary := i.dns2.elim ipv6.dnsSecondary id
    prefixLengthIPAddr := i.prefixOf
    prefixLengthGateway := i.prefixOf
    mtu := mbim2qmiIpv4addr mtu }

/-- The IPv4 address is new, or everything is printed. -/
def MbimLog.ShowsIp (d : MbimLog) (p : Profile) (address : UInt32) : Prop :=
  p.ipv4.address ≠ address ∨ d.mbimVerbose

instance (d : MbimLog) (p : Profile) (address : UInt32) : Decidable (d.ShowsIp p address) :=
  inferInstanceAs (Decidable (_ ∨ _))

/-- The IPv4 elements, which are printed when the address is new. -/
def readIpv4 (e : Endian) (d : MbimLog) (p : Profile) (pInfo : ℕ) (available : UInt32) :
    Reads UInt8 MbimIpElements := do
  let i ← readElements e mbimIpv4Layout pInfo available
  Reads.when (d.ShowsIp p (mbimAddrOn e i.address)) (mbimDumpIpconfig e pInfo)
  pure i

/-- The variable `mtu` behind the IPv4 part. -/
def mtuBehind (i4 : Option MbimIpElements) : UInt32 := (i4.bind MbimIpElements.mtu).getD 1500

/-- The profile gets the elements of the families that have an address. -/
def setMbimElements (e : Endian) (p : Profile) (i4 i6 : Option MbimIpElements) : Profile :=
  { p with
    ipv4 := i4.elim p.ipv4 fun i => i.ipv4 e (mtuBehind i4) p.ipv4
    ipv6 := i6.elim p.ipv6 fun i => i.ipv6 (i.mtu.getD (mtuBehind i4)) p.ipv6 }

/-- The information buffer is copied into the profile. -/
def setMbimAddressReads (e : Endian) (d : MbimLog) (p : Profile) (pInfo : ℕ) :
    Reads UInt8 Profile := do
  let available4 ← readField e (pInfo + mbimIpv4Layout.configurationAvailable)
  let i4 ← optional (available4 &&& 0x1 ≠ 0) (readIpv4 e d p pInfo available4)
  let available6 ← readField e (pInfo + mbimIpv6Layout.configurationAvailable)
  let i6 ← optional (available6 &&& 0x1 ≠ 0) (readElements e mbimIpv6Layout pInfo available6)
  pure (setMbimElements e p i4 i6)

/-- `mbim_status_code` -/
def mbimStatusCodeReads (e : Endian) : Reads UInt8 UInt32 := do
  let type ← readField e 0
  if type = 0x80000001 ∨ type = 0x80000002 ∨ type = 0x80000004 then readField e 12
  else if type = mbimCommandDone then readField e 40
  else pure 0

/-- `mbim_ip_config` with an answer.  One with a status is printed unless it has been already. -/
def mbimIpConfigReads (e : Endian) (d : MbimLog) (p : Profile) : Reads UInt8 (ℤ × Profile) := do
  let status ← mbimStatusCodeReads e
  if status ≠ 0 then do
    mbimDump e { d with mbimVerbose := !d.mbimVerbose }
    pure (status.toBitVec.toInt, p)
  else do
    let informationBufferLength ← readField e 44
    if informationBufferLength ≠ 0 then do
      let p ← setMbimAddressReads e d p commandBufferAt
      pure (0, p)
    else pure (0, p)

/-! ### The values -/

section

variable (e : Endian) (d : MbimLog) (r : MbimReader) (mem : ℕ → UInt8)

theorem run_readAnswers : run mem (readAnswers e r) = decide (AnswersOn e r mem) := by
  rw [readAnswers]
  cases h : r.mbimPRequest with
  | none => simp [AnswersOn, h]
  | some pRequest => simp [AnswersOn, h]

theorem run_indicateReads : run mem (indicateReads e r) = indicateOn e r mem := by
  simp only [indicateReads, indicateOn, Reads.run_bind, Reads.run_ite, Reads.run_pure,
    run_readField, run_readRaw, le32toh_load32]

theorem run_copyResponse :
    run mem (copyResponse e true) = [.response (load mem 0 (field32 mem 4).toNat), .signal] := by
  simp only [copyResponse, Reads.run_bind, Reads.run_optional, Reads.run_bytes, run_readField]
  rfl

/-- **With memory for an answer the reader does what it does with a message.** -/
theorem run_mbimRecvCommandReads :
    run mem (mbimRecvCommandReads e d r true) = mbimRecvCommandOn e r (some mem) := by
  simp only [mbimRecvCommandReads, mbimRecvCommandOn, Reads.run_bind, Reads.run_ite,
    Reads.run_pure, run_readAnswers, run_readField, run_readBasicConnect, run_copyResponse,
    run_indicateReads, le32toh_load32, decide_eq_true_eq]

end

/-! ### The profile -/

/-- The fields of the family in an information buffer. -/
def MbimIpLayout.info (l : MbimIpLayout) (pInfo : List UInt8) : MbimIpInfo :=
  ⟨le32At pInfo l.configurationAvailable, le32At pInfo l.addressOffset,
    le32At pInfo l.gatewayOffset, le32At pInfo l.dnsServerCount, le32At pInfo l.dnsServerOffset,
    le32At pInfo l.mtu⟩

theorem info_ipv4 (pInfo : List UInt8) : mbimIpv4Layout.info pInfo = mbimIpv4Info pInfo := rfl

theorem info_ipv6 (pInfo : List UInt8) : mbimIpv6Layout.info pInfo = mbimIpv6Info pInfo := rfl

/-- The elements of the family in an information buffer. -/
def MbimIpLayout.elements (l : MbimIpLayout) (pInfo : List UInt8) : MbimIpElements :=
  let i := l.info pInfo
  { prefixOf := i.prefixOf pInfo
    address := Qmi.bytesAt pInfo (i.pAddress + 4) l.size
    gw := i.gw.map (Qmi.bytesAt pInfo · l.size)
    dns1 := i.dns1.map (Qmi.bytesAt pInfo · l.size)
    dns2 := (i.dns2 l.size).map (Qmi.bytesAt pInfo · l.size)
    mtu := if i.Has 0x8 then some i.mtu else none }

section

variable {mem : ℕ → UInt8} {pInfo : List UInt8} {e : Endian} {d : MbimLog}

/-- The information buffer as a list, with everything that an offset can mean. -/
structure InfoList (mem : ℕ → UInt8) (pInfo : List UInt8) : Prop where
  field : ∀ p, p ≤ 4294967396 → le32At pInfo p = field32 mem (commandBufferAt + p)
  piece : ∀ p k, p ≤ 4294967396 → k ≤ 16 →
    Qmi.bytesAt pInfo p k = load mem (commandBufferAt + p) k

theorem infoList_load (mem : ℕ → UInt8) (n : ℕ) :
    InfoList mem (informationBuffer (load mem 0 (commandBufferAt + (4294967496 + n)))) := by
  rw [informationBuffer]
  have hdrop := drop_load mem 0 commandBufferAt (4294967496 + n)
  rw [Nat.zero_add] at hdrop
  rw [show (48 : ℕ) = commandBufferAt from rfl, hdrop]
  constructor
  · intro p hp
    exact le32At_load mem commandBufferAt (by omega)
  · intro p k hp hk
    refine List.map_congr_left fun i hi => ?_
    have hlt := List.mem_range.1 hi
    rw [byteAt_load mem commandBufferAt (by omega), Nat.add_assoc]

namespace InfoList

variable {l : MbimIpLayout}

theorem run_readAddress (h : InfoList mem pInfo) {p size : ℕ} (hp : p ≤ 60) (hsize : size ≤ 16) :
    run mem (readAddress e commandBufferAt p size) =
      Qmi.bytesAt pInfo (le32At pInfo p).toNat size := by
  have hoffset := (field32 mem (commandBufferAt + p)).toNat_lt
  simp only [readAddress, Reads.run_bind, run_readField, Reads.run_bytes]
  rw [h.field p (by omega), h.piece _ _ (by omega) hsize]

theorem run_readElement (h : InfoList mem pInfo) (hl : l = mbimIpv4Layout ∨ l = mbimIpv6Layout) :
    run mem (readElement e l commandBufferAt) =
      ((l.info pInfo).prefixOf pInfo, Qmi.bytesAt pInfo ((l.info pInfo).pAddress + 4) l.size) := by
  have hoffset := (field32 mem (commandBufferAt + l.addressOffset)).toNat_lt
  have hplace : l.addressOffset ≤ 60 ∧ l.size ≤ 16 := by
    rcases hl with rfl | rfl <;> decide
  simp only [readElement, Reads.run_bind, run_readField, Reads.run_bytes, Reads.run_pure,
    MbimIpInfo.prefixOf, MbimIpInfo.pAddress, MbimIpLayout.info]
  rw [h.field l.addressOffset (by omega), h.field _ (by omega), h.piece _ _ (by omega) hplace.2,
    Nat.add_assoc]

theorem run_readServers (h : InfoList mem pInfo) (hl : l = mbimIpv4Layout ∨ l = mbimIpv6Layout) :
    run mem (readServers e l commandBufferAt fun dns2 => Reads.bytes dns2 l.size) =
      (Qmi.bytesAt pInfo (le32At pInfo l.dnsServerOffset).toNat l.size,
        if le32At pInfo l.dnsServerCount = 2 then
          some (Qmi.bytesAt pInfo ((le32At pInfo l.dnsServerOffset).toNat + l.size) l.size)
        else none) := by
  have hoffset := (field32 mem (commandBufferAt + l.dnsServerOffset)).toNat_lt
  have hplace : l.dnsServerOffset ≤ 60 ∧ l.dnsServerCount ≤ 60 ∧ l.size ≤ 16 := by
    rcases hl with rfl | rfl <;> decide
  simp only [readServers, Reads.run_bind, run_readField, Reads.run_bytes, Reads.run_pure,
    Reads.run_optional]
  rw [h.field l.dnsServerOffset (by omega), h.field l.dnsServerCount (by omega),
    h.piece _ _ (by omega) hplace.2.2, h.piece _ _ (by omega) hplace.2.2, Nat.add_assoc]

theorem run_readElements (h : InfoList mem pInfo) (hl : l = mbimIpv4Layout ∨ l = mbimIpv6Layout) :
    run mem (readElements e l commandBufferAt (l.info pInfo).configurationAvailable) =
      l.elements pInfo := by
  have hplace : l.gatewayOffset ≤ 60 ∧ l.mtu ≤ 60 ∧ l.size ≤ 16 := by
    rcases hl with rfl | rfl <;> decide
  simp only [readElements, Reads.run_bind, Reads.run_optional, Reads.run_pure, run_readField,
    h.run_readElement hl, h.run_readServers hl, h.run_readAddress hplace.1 hplace.2.2,
    ← h.field l.mtu (by omega)]
  simp only [MbimIpLayout.elements, MbimIpElements.mk.injEq, true_and]
  refine ⟨?gw, ?dns1, ?dns2, rfl⟩
  case gw =>
    rw [MbimIpInfo.gw, apply_ite (Option.map _)]
    rfl
  case dns1 =>
    rw [MbimIpInfo.dns1, apply_ite (Option.map _), apply_ite (Option.map _)]
    rfl
  case dns2 =>
    by_cases hdns : le32At pInfo l.configurationAvailable &&& 0x4 = 0 <;>
      by_cases hcount : le32At pInfo l.dnsServerCount = 2 <;>
      simp [MbimIpInfo.dns2, MbimIpInfo.Has, MbimIpLayout.info, hdns, hcount]

/-- The number that an IPv4 address is stored as. -/
theorem mbimAddrOn_bytesAt (h : InfoList mem pInfo) {p : ℕ} (hp : p ≤ 4294967396) :
    mbimAddrOn .little (Qmi.bytesAt pInfo p 4) = mbimAddr pInfo p := by
  rw [h.piece p 4 hp (by omega), mbimAddr, h.field p hp]
  rfl

/-- An address that may not be there. -/
theorem elim_mbimAddrOn (h : InfoList mem pInfo) {place : Option ℕ}
    (hplace : ∀ p ∈ place, p ≤ 4294967396) (old : UInt32) :
    (place.map (Qmi.bytesAt pInfo · 4)).elim old (mbimAddrOn .little) =
      place.elim old (mbimAddr pInfo) := by
  cases place with
  | none => rfl
  | some p => exact h.mbimAddrOn_bytesAt (hplace p rfl)

/-- The IPv4 part. -/
theorem ipv4_elements (h : InfoList mem pInfo) (mtu : UInt32) (ipv4 : Ipv4) :
    (mbimIpv4Layout.elements pInfo).ipv4 .little mtu ipv4 = mbimIpv4 pInfo mtu ipv4 := by
  have haddress := (mbimIpv4Info pInfo).addressOffset.toNat_lt
  have hgateway := (mbimIpv4Info pInfo).gatewayOffset.toNat_lt
  have hserver := (mbimIpv4Info pInfo).dnsServerOffset.toNat_lt
  have hpAddress : (mbimIpv4Info pInfo).pAddress + 4 ≤ 4294967396 := by
    rw [MbimIpInfo.pAddress]
    omega
  have hgw : ∀ p ∈ (mbimIpv4Info pInfo).gw, p ≤ 4294967396 := by
    intro p hp
    simp only [MbimIpInfo.gw, Option.mem_ite_none_right, Option.mem_some_iff] at hp
    omega
  have hdns1 : ∀ p ∈ (mbimIpv4Info pInfo).dns1, p ≤ 4294967396 := by
    intro p hp
    simp only [MbimIpInfo.dns1, Option.mem_ite_none_right, Option.mem_some_iff] at hp
    omega
  have hdns2 : ∀ p ∈ (mbimIpv4Info pInfo).dns2 4, p ≤ 4294967396 := by
    intro p hp
    simp only [MbimIpInfo.dns2, Option.mem_ite_none_right, Option.mem_some_iff] at hp
    omega
  simp only [MbimIpElements.ipv4, mbimIpv4, Ipv4.mk.injEq, and_true]
  exact ⟨h.mbimAddrOn_bytesAt hpAddress, h.elim_mbimAddrOn hgw _, rfl, h.elim_mbimAddrOn hdns1 _,
    h.elim_mbimAddrOn hdns2 _⟩

/-- The IPv6 part. -/
theorem ipv6_elements (mtu : UInt32) (ipv6 : Ipv6) :
    (mbimIpv6Layout.elements pInfo).ipv6 mtu ipv6 = mbimIpv6 pInfo mtu ipv6 := by
  simp only [MbimIpElements.ipv6, MbimIpLayout.elements, mbimIpv6, Option.elim_map]
  rfl

theorem run_readIpv4 (h : InfoList mem pInfo) (p : Profile) :
    run mem (readIpv4 e d p commandBufferAt (mbimIpv4Info pInfo).configurationAvailable) =
      mbimIpv4Layout.elements pInfo := by
  rw [readIpv4, Reads.run_bind, Reads.run_bind]
  exact h.run_readElements (.inl rfl)

theorem mtuBehind_elements (pInfo : List UInt8) :
    mtuBehind (if (mbimIpv4Info pInfo).Has 0x1 then some (mbimIpv4Layout.elements pInfo)
      else none) = mtuAfterIpv4 pInfo := by
  rw [mtuAfterIpv4]
  by_cases haddress : (mbimIpv4Info pInfo).Has 0x1 <;>
    by_cases hmtu : (mbimIpv4Info pInfo).Has 0x8 <;>
    simp [mtuBehind, MbimIpLayout.elements, info_ipv4, haddress, hmtu]

theorem getD_mtu_elements (pInfo : List UInt8) :
    (mbimIpv6Layout.elements pInfo).mtu.getD (mtuAfterIpv4 pInfo) = mtuAfterIpv6 pInfo := by
  rw [mtuAfterIpv6]
  by_cases hmtu : (mbimIpv6Info pInfo).Has 0x8 <;>
    simp [MbimIpLayout.elements, info_ipv6, hmtu]

theorem setMbimElements_elements (h : InfoList mem pInfo) (p : Profile) :
    setMbimElements .little p
      (if (mbimIpv4Info pInfo).Has 0x1 then some (mbimIpv4Layout.elements pInfo) else none)
      (if (mbimIpv6Info pInfo).Has 0x1 then some (mbimIpv6Layout.elements pInfo) else none) =
        setMbimAddress pInfo p := by
  rw [setMbimElements, setMbimAddress, mtuBehind_elements]
  by_cases h4 : (mbimIpv4Info pInfo).Has 0x1 <;> by_cases h6 : (mbimIpv6Info pInfo).Has 0x1 <;>
    simp [h4, h6, h.ipv4_elements, ipv6_elements, getD_mtu_elements]

theorem run_setMbimAddressReads (h : InfoList mem pInfo) (p : Profile) :
    run mem (setMbimAddressReads .little d p commandBufferAt) = setMbimAddress pInfo p := by
  have havailable4 : field32 mem (commandBufferAt + mbimIpv4Layout.configurationAvailable) =
      (mbimIpv4Info pInfo).configurationAvailable := (h.field _ (by decide)).symm
  have havailable6 : field32 mem (commandBufferAt + mbimIpv6Layout.configurationAvailable) =
      (mbimIpv6Info pInfo).configurationAvailable := (h.field _ (by decide)).symm
  have helements6 : run mem (readElements .little mbimIpv6Layout commandBufferAt
      (mbimIpv6Info pInfo).configurationAvailable) = mbimIpv6Layout.elements pInfo :=
    h.run_readElements (.inr rfl)
  simp only [setMbimAddressReads, Reads.run_bind, Reads.run_optional, Reads.run_pure,
    run_readField, havailable4, havailable6, h.run_readIpv4, helements6]
  exact h.setMbimElements_elements p

end InfoList

end

/-- A status that is not zero as an `int`. -/
theorem toInt_eq_zero (status : UInt32) : status.toBitVec.toInt = 0 ↔ status = 0 := by
  rw [← UInt32.toBitVec_inj, ← BitVec.toInt_inj]
  exact Iff.rfl

theorem le32At_load_zero {mem : ℕ → UInt8} {p n : ℕ} (h : p + 3 < n) :
    le32At (load mem 0 n) p = field32 mem p := by
  rw [le32At_load mem 0 h, Nat.zero_add]

/-- The status, as the `int` that it is. -/
theorem run_mbimStatusCodeReads {e : Endian} {mem : ℕ → UInt8} {n : ℕ} (h : 44 ≤ n) :
    (run mem (mbimStatusCodeReads e)).toBitVec.toInt = mbimStatusCode (load mem 0 n) := by
  simp only [mbimStatusCodeReads, mbimStatusCode, Reads.run_bind, Reads.run_ite, Reads.run_pure,
    run_readField]
  rw [le32At_load_zero (by omega), le32At_load_zero (by omega), le32At_load_zero (by omega)]
  rw [apply_ite UInt32.toBitVec, apply_ite BitVec.toInt, apply_ite UInt32.toBitVec,
    apply_ite BitVec.toInt]
  rfl

/-- **The profile is what `mbim_ip_config` makes of the message.** -/
theorem run_mbimIpConfigReads (d : MbimLog) (p : Profile) (mem : ℕ → UInt8) (n : ℕ) :
    run mem (mbimIpConfigReads .little d p) =
      mbimIpConfig ⟨0, some (load mem 0 (commandBufferAt + (4294967496 + n)))⟩ p := by
  have hbuffer : commandBufferAt = 48 := rfl
  have hstatus : mbimStatusCode (load mem 0 (commandBufferAt + (4294967496 + n))) =
      (run mem (mbimStatusCodeReads .little)).toBitVec.toInt :=
    (run_mbimStatusCodeReads (by omega)).symm
  have hlength : informationBufferLength (load mem 0 (commandBufferAt + (4294967496 + n))) =
      field32 mem 44 := le32At_load_zero (by omega)
  simp only [mbimIpConfigReads, mbimIpConfig, mbimCheckErr, Reads.run_bind, Reads.run_ite,
    Reads.run_pure, run_readField, (infoList_load mem n).run_setMbimAddressReads,
    Option.elim_some, hstatus, ne_eq, toInt_eq_zero, not_true_eq_false, if_false]
  by_cases hzero : run mem (mbimStatusCodeReads .little) = 0
  · rw [if_neg (not_not_intro hzero), if_neg (not_not_intro hzero), ← hlength]
  · rw [if_pos hzero, if_pos hzero]

end QuectelCM

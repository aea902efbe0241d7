/-
**MBIM answers and what has been received of them.**

No length and no offset of a message is compared with the number of bytes that were read from the
device.  An answer is copied with the length that stands in it, the elements of an IP configuration
are looked up wherever their offsets point, and the log prints whole structures.

* `QuectelCM.DumpClean`, `QuectelCM.RecvClean`, `QuectelCM.IpConfigClean` — the messages for which
  `mbim_dump`, `mbim_recv_command` and `mbim_ip_config` stay in the first `n` bytes;
* `QuectelCM.within_mbimDump`, `QuectelCM.within_mbimRecvCommandReads`,
  `QuectelCM.within_mbimIpConfigReads` — that these conditions are exact;
* `QuectelCM.ReadsReceived` — only bytes are read that were received with the message;
* `QuectelCM.readsReceived_iff` — **the exact condition**.
-/
import OpenwrtPackage.QuectelCM.MbimReads

set_option relaxedAutoImplicit false
set_option autoImplicit false

namespace QuectelCM

open Bytes Memory Host
open Reads (run Within look)

section

variable {mem : ℕ → UInt8} {n : ℕ} {e : Endian}

theorem within_readField (p : ℕ) : Within (· < n) mem (readField e p) ↔ p + 4 ≤ n :=
  (Reads.within_map _ _).trans (Reads.within_lt_bytes_of_ne p (by decide))

theorem within_readRaw (p : ℕ) : Within (· < n) mem (readRaw e p) ↔ p + 4 ≤ n :=
  (Reads.within_map _ _).trans (Reads.within_lt_bytes_of_ne p (by decide))

theorem within_readBasicConnect : Within (· < n) mem readBasicConnect ↔ 36 ≤ n :=
  (Reads.within_map _ _).trans (Reads.within_lt_bytes_of_ne deviceServiceIdAt (by decide))

end

/-! ### What is printed -/

section

variable (mem : ℕ → UInt8) (n : ℕ)

/-- The message is about the basic connect service. -/
def BasicConnect : Prop := load mem deviceServiceIdAt 16 = uuidBasicConnect

instance : Decidable (BasicConnect mem) := inferInstanceAs (Decidable (_ = _))

/-- The segment whose offset stands at `p`, every other byte of it. -/
def SegmentClean (pInfo p : ℕ) : Prop :=
  p + 8 ≤ n ∧ ∀ idx < (field32 mem (p + 4)).toNat / 2,
    pInfo + (field32 mem p + UInt32.ofNat (idx * 2)).toNat < n

/-- `MBIM_SUBSCRIBER_READY_STATUS_T` -/
structure SubscriberClean (pInfo : ℕ) : Prop where
  fields : pInfo + 28 ≤ n
  simIccId : SegmentClean mem n pInfo (pInfo + 12)
  subscriberId : SegmentClean mem n pInfo (pInfo + 4)
  number : field32 mem (pInfo + 24) ≠ 0 → SegmentClean mem n pInfo (pInfo + 28)

/-- The information of the basic connect service that is printed. -/
def InfoClean (cid : UInt32) (pInfo : ℕ) : Prop :=
  if cid = mbimCidConnect then pInfo + 36 ≤ n
  else if cid = mbimCidPacketService then pInfo + 28 ≤ n
  else if cid = mbimCidSubscriberReadyStatus then SubscriberClean mem n pInfo
  else if cid = mbimCidRegisterState then pInfo + 12 ≤ n
  else True

/-- The information of an indication. -/
def IndInfoClean (cid : UInt32) (pInfo : ℕ) : Prop :=
  if cid = mbimCidSignalState then pInfo + 20 ≤ n else InfoClean mem n cid pInfo

/-- The buffer behind the length is empty, or of another service, or clean. -/
def BufferClean (lengthAt : ℕ) (clean : UInt32 → ℕ → Prop) : Prop :=
  lengthAt + 4 ≤ n ∧
    (field32 mem lengthAt ≠ 0 → BasicConnect mem → clean (field32 mem cidAt) (lengthAt + 4))

/-- What is printed behind the header. -/
def ContentsClean (type : UInt32) : Prop :=
  if type ∈ oneFieldTypes then 16 ≤ n
  else if type = mbimCommandMsg then
    48 ≤ n ∧ (BasicConnect mem → field32 mem cidAt = mbimCidConnect ∨
      field32 mem cidAt = mbimCidIpConfiguration → 52 ≤ n)
  else if type = mbimCommandDone then BufferClean mem n 44 (InfoClean mem n)
  else if type = mbimIndicateStatusMsg then BufferClean mem n 40 (IndInfoClean mem n)
  else True

/-- A message that can be printed. -/
structure DumpClean (tmp : Bool) : Prop where
  header : 12 ≤ n
  bytes : tmp → min (field32 mem 4).toNat 4096 ≤ n
  contents : ContentsClean mem n (field32 mem 0)

end

section

variable {mem : ℕ → UInt8} {n : ℕ} {e : Endian}

theorem within_mbimDumpSegment (pInfo p : ℕ) :
    Within (· < n) mem (mbimDumpSegment e pInfo p) ↔ SegmentClean mem n pInfo p := by
  simp only [mbimDumpSegment, mbimGetSegment, Reads.within_bind, Reads.within_map,
    Reads.within_gather, within_readField, run_readField, List.mem_map, List.mem_range]
  constructor
  · rintro ⟨-, hlength, hall⟩
    exact ⟨hlength, fun idx hidx => hall _ ⟨idx, hidx, rfl⟩⟩
  · rintro ⟨hlength, hall⟩
    refine ⟨by omega, hlength, ?_⟩
    rintro _ ⟨idx, hidx, rfl⟩
    exact hall idx hidx

theorem within_mbimDumpSubscriberStatus (pInfo : ℕ) :
    Within (· < n) mem (mbimDumpSubscriberStatus e pInfo) ↔ SubscriberClean mem n pInfo := by
  have hcount : (field32 mem (pInfo + 24)).toNat ≠ 0 ↔ field32 mem (pInfo + 24) ≠ 0 :=
    not_congr (@UInt32.toNat_inj _ 0)
  simp only [mbimDumpSubscriberStatus, Reads.within_bind, Reads.within_times,
    Reads.within_lt_look_of_ne _ (Nat.succ_ne_zero _), within_mbimDumpSegment, within_readField,
    run_readField, hcount]
  constructor
  · rintro ⟨-, hsim, hsubscriber, hfields, hnumber⟩
    exact ⟨hfields, hsim, hsubscriber, hnumber⟩
  · rintro ⟨hfields, hsim, hsubscriber, hnumber⟩
    exact ⟨by omega, hsim, hsubscriber, hfields, hnumber⟩

theorem within_mbimDumpInfo (cid : UInt32) (pInfo : ℕ) :
    Within (· < n) mem (mbimDumpInfo e cid pInfo) ↔ InfoClean mem n cid pInfo := by
  simp only [mbimDumpInfo, InfoClean, mbimDumpConnect, mbimDumpPacketService,
    mbimDumpRegiesterStatus, apply_ite (Within (· < n) mem), Reads.within_pure,
    Reads.within_lt_look_of_ne _ (Nat.succ_ne_zero _), within_mbimDumpSubscriberStatus]

theorem within_mbimDumpIndInfo (cid : UInt32) (pInfo : ℕ) :
    Within (· < n) mem (mbimDumpIndInfo e cid pInfo) ↔ IndInfoClean mem n cid pInfo := by
  simp only [mbimDumpIndInfo, IndInfoClean, mbimDumpSignalState, apply_ite (Within (· < n) mem),
    Reads.within_lt_look_of_ne _ (Nat.succ_ne_zero _), within_mbimDumpInfo]

/-- A buffer whose header has been printed. -/
theorem within_mbimDumpBuffer {lengthAt : ℕ} {dump : UInt32 → ℕ → Reads UInt8 Unit}
    {clean : UInt32 → ℕ → Prop} (hplace : cidAt + 4 ≤ lengthAt)
    (hdump : ∀ cid pInfo, Within (· < n) mem (dump cid pInfo) ↔ clean cid pInfo) :
    Within (· < n) mem (mbimDumpBuffer e lengthAt dump) ↔ BufferClean mem n lengthAt clean := by
  have hcid : cidAt = 36 := rfl
  simp only [mbimDumpBuffer, Reads.within_bind, Reads.within_when, within_readField, run_readField,
    within_readBasicConnect, run_readBasicConnect, decide_eq_true_eq, hdump]
  constructor
  · rintro ⟨hlength, hbuffer⟩
    exact ⟨hlength, fun hne hbasic => ((hbuffer hne).2 hbasic).2⟩
  · rintro ⟨hlength, hbuffer⟩
    exact ⟨hlength, fun hne => ⟨by omega, fun hbasic => ⟨by omega, hbuffer hne hbasic⟩⟩⟩

theorem within_mbimDumpSession :
    Within (· < n) mem (mbimDumpSession e) ↔ 36 ≤ n ∧ (BasicConnect mem → 40 ≤ n ∧
      (field32 mem cidAt = mbimCidConnect ∨ field32 mem cidAt = mbimCidIpConfiguration →
        52 ≤ n)) := by
  simp only [mbimDumpSession, Reads.within_bind, Reads.within_when, within_readField,
    run_readField, within_readBasicConnect, run_readBasicConnect, decide_eq_true_eq,
    Reads.within_lt_look_of_ne _ (Nat.succ_ne_zero _), commandBufferAt]
  exact Iff.rfl

theorem within_mbimDumpContents (type : UInt32) :
    Within (· < n) mem (mbimDumpContents e type) ↔ ContentsClean mem n type := by
  -- What is printed of the fields before a buffer reaches to the length of the buffer.
  have hcommand : deviceServiceIdAt + 28 ≤ n ∧ Within (· < n) mem (mbimDumpSession e) ↔
      48 ≤ n ∧ (BasicConnect mem → field32 mem cidAt = mbimCidConnect ∨
        field32 mem cidAt = mbimCidIpConfiguration → 52 ≤ n) := by
    rw [within_mbimDumpSession, deviceServiceIdAt]
    refine and_congr_right fun hfields => ⟨fun h hbasic => (h.2 hbasic).2, fun h => ?_⟩
    exact ⟨by omega, fun hbasic => ⟨by omega, h hbasic⟩⟩
  have hdone : deviceServiceIdAt + 28 ≤ n ∧
      Within (· < n) mem (mbimDumpBuffer e 44 (mbimDumpInfo e)) ↔
        BufferClean mem n 44 (InfoClean mem n) := by
    rw [within_mbimDumpBuffer (by decide) within_mbimDumpInfo]
    exact and_iff_right_of_imp And.left
  have hind : deviceServiceIdAt + 24 ≤ n ∧
      Within (· < n) mem (mbimDumpBuffer e 40 (mbimDumpIndInfo e)) ↔
        BufferClean mem n 40 (IndInfoClean mem n) := by
    rw [within_mbimDumpBuffer (by decide) within_mbimDumpIndInfo]
    exact and_iff_right_of_imp And.left
  simp only [mbimDumpContents, ContentsClean, apply_ite (Within (· < n) mem), Reads.within_bind,
    Reads.within_pure, mbimDumpCommandMsg, mbimDumpCommandDone, mbimDumpIndicateMsg,
    Reads.within_lt_look_of_ne _ (Nat.succ_ne_zero _), hcommand, hdone, hind]

theorem within_mbimDumpBytes :
    Within (· < n) mem (mbimDumpBytes e) ↔ 8 ≤ n ∧ min (field32 mem 4).toNat 4096 ≤ n := by
  rw [mbimDumpBytes, Reads.within_bind, within_readField, run_readField,
    Reads.within_lt_look_zero]

/-- **The messages that `mbim_dump` prints without leaving them.** -/
theorem within_mbimDump (d : MbimLog) :
    Within (· < n) mem (mbimDump e d) ↔ 4 ≤ n ∧ (d.mbimVerbose → DumpClean mem n d.tmp) := by
  simp only [mbimDump, mbimDumpHeader, Reads.within_bind, Reads.within_when, within_readField,
    run_readField, within_mbimDumpBytes, within_mbimDumpContents,
    Reads.within_lt_look_of_ne _ (Nat.succ_ne_zero _)]
  refine and_congr_right fun _ => forall_congr' fun _ => ?_
  constructor
  · rintro ⟨hbytes, hheader, hcontents⟩
    exact ⟨hheader, fun htmp => (hbytes htmp).2, hcontents⟩
  · rintro ⟨hheader, hbytes, hcontents⟩
    exact ⟨fun htmp => ⟨by omega, hbytes htmp⟩, hheader, hcontents⟩

end

/-! ### The reader -/

/-- The indications of the basic connect service that the reader looks into. -/
def IndicationClean (e : Endian) (r : MbimReader) (mem : ℕ → UInt8) (n : ℕ) (cid : UInt32) : Prop :=
  if cid = mbimCidSubscriberReadyStatus then 48 ≤ n
  else if cid = mbimCidRegisterState then 52 ≤ n
  else if cid = mbimCidPacketService then 52 ≤ n
  else if cid = mbimCidConnect then
    48 ≤ n ∧ (load32 e mem informationBufferAt = UInt32.ofInt r.mbimSessionID → 52 ≤ n)
  else 40 ≤ n

/-- A message that the reader can take. -/
structure RecvClean (e : Endian) (d : MbimLog) (r : MbimReader) (alloc : Bool) (mem : ℕ → UInt8)
    (n : ℕ) : Prop where
  messageType : 4 ≤ n
  log : d.mbimVerbose → DumpClean mem n d.tmp
  pending : r.mbimPRequest.isSome → 12 ≤ n
  answer : AnswersOn e r mem → alloc → (field32 mem 4).toNat ≤ n
  indication : ¬ AnswersOn e r mem → field32 mem 0 = mbimIndicateStatusMsg →
    36 ≤ n ∧ (BasicConnect mem → IndicationClean e r mem n (field32 mem cidAt))

section

variable {mem : ℕ → UInt8} {n : ℕ} {e : Endian} {r : MbimReader}

theorem within_indicateReads :
    Within (· < n) mem (indicateReads e r) ↔ IndicationClean e r mem n (field32 mem cidAt) := by
  have hcid : cidAt = 36 := rfl
  have hinfo : informationBufferAt = 44 := rfl
  simp only [indicateReads, IndicationClean, apply_ite (Within (· < n) mem), Reads.within_bind,
    Reads.within_pure, within_readField, run_readField, within_readRaw, run_readRaw, and_true]
  split_ifs with hready hregister hpacket hconnect hsession
  case pos => omega
  case pos => omega
  case pos => omega
  case pos =>
    rw [forall_prop_of_true hsession]
    omega
  case neg =>
    rw [forall_prop_of_false hsession, and_true, and_true]
    omega
  case neg =>
    rw [and_true]
    omega

theorem within_readAnswers :
    Within (· < n) mem (readAnswers e r) ↔ (r.mbimPRequest.isSome → 12 ≤ n) := by
  rw [readAnswers]
  cases hrequest : r.mbimPRequest with
  | none => exact iff_of_true trivial fun h => absurd h (by decide)
  | some pRequest =>
      rw [Reads.within_bind, within_readField]
      exact (and_iff_left trivial).trans ⟨fun h _ => h, fun h => h rfl⟩

theorem within_copyResponse (alloc : Bool) :
    Within (· < n) mem (copyResponse e alloc) ↔
      8 ≤ n ∧ (alloc → (field32 mem 4).toNat ≤ n) := by
  simp only [copyResponse, Reads.within_bind, Reads.within_optional, Reads.within_pure,
    Reads.within_lt_bytes_zero, within_readField, run_readField, and_true]

/-- **The messages that the reader takes without leaving them.** -/
theorem within_mbimRecvCommandReads (d : MbimLog) (alloc : Bool) :
    Within (· < n) mem (mbimRecvCommandReads e d r alloc) ↔ RecvClean e d r alloc mem n := by
  have hsome : AnswersOn e r mem → r.mbimPRequest.isSome := by
    rintro ⟨pRequest, hpending, -⟩
    exact Option.isSome_of_mem hpending
  simp only [mbimRecvCommandReads, Reads.within_bind, Reads.within_ite, Reads.within_pure,
    within_mbimDump, within_readAnswers, run_readAnswers, decide_eq_true_eq, within_copyResponse,
    within_readField, run_readField, within_readBasicConnect, run_readBasicConnect,
    within_indicateReads]
  constructor
  · rintro ⟨⟨htype, hlog⟩, hpending, hanswer, hindication⟩
    exact ⟨htype, hlog, hpending, fun ha => (hanswer ha).2, fun ha hind =>
      ⟨((hindication ha).2.1 hind).1, fun hbasic => ((hindication ha).2.1 hind).2.1 hbasic⟩⟩
  · rintro ⟨htype, hlog, hpending, hanswer, hindication⟩
    refine ⟨⟨htype, hlog⟩, hpending, fun ha => ⟨?_, hanswer ha⟩, fun ha => ⟨htype, ?_, ?_⟩⟩
    · have htransaction := hpending (hsome ha)
      omega
    · intro hind
      exact ⟨(hindication ha hind).1, (hindication ha hind).2, fun _ => trivial⟩
    · exact fun _ => trivial

end

/-! ### The elements of an IP configuration -/

section

variable (mem : ℕ → UInt8) (n : ℕ)

/-- An address whose offset stands at `p`. -/
structure AddressClean (pInfo p size : ℕ) : Prop where
  offset : pInfo + p + 4 ≤ n
  address : pInfo + (field32 mem (pInfo + p)).toNat + size ≤ n

/-- `pAddress` -/
structure ElementClean (l : MbimIpLayout) (pInfo : ℕ) : Prop where
  offset : pInfo + l.addressOffset + 4 ≤ n
  element : pInfo + (field32 mem (pInfo + l.addressOffset)).toNat + 4 + l.size ≤ n

/-- The DNS servers. -/
structure ServersClean (l : MbimIpLayout) (pInfo : ℕ) : Prop where
  first : AddressClean mem n pInfo l.dnsServerOffset l.size
  count : pInfo + l.dnsServerCount + 4 ≤ n
  second : field32 mem (pInfo + l.dnsServerCount) = 2 →
    pInfo + (field32 mem (pInfo + l.dnsServerOffset)).toNat + l.size + l.size ≤ n

/-- The elements that `ConfigurationAvailable` announces. -/
structure ElementsClean (l : MbimIpLayout) (pInfo : ℕ) (available : UInt32) : Prop where
  element : ElementClean mem n l pInfo
  gateway : available &&& 0x2 ≠ 0 → AddressClean mem n pInfo l.gatewayOffset l.size
  servers : available &&& 0x4 ≠ 0 → ServersClean mem n l pInfo
  mtu : available &&& 0x8 ≠ 0 → pInfo + l.mtu + 4 ≤ n

/-- What is printed of a family. -/
structure DumpFamilyClean (l : MbimIpLayout) (pInfo : ℕ) : Prop where
  available : pInfo + l.configurationAvailable + 4 ≤ n
  element : field32 mem (pInfo + l.configurationAvailable) &&& 0x1 ≠ 0 → ElementClean mem n l pInfo
  gateway : field32 mem (pInfo + l.configurationAvailable) &&& 0x2 ≠ 0 →
    AddressClean mem n pInfo l.gatewayOffset l.size
  servers : field32 mem (pInfo + l.configurationAvailable) &&& 0x3 ≠ 0 →
    ServersClean mem n l pInfo
  mtu : pInfo + l.mtu + 4 ≤ n

/-- What is printed of an IP configuration. -/
structure DumpIpconfigClean (pInfo : ℕ) : Prop where
  fields : pInfo + 28 ≤ n
  ipv4 : DumpFamilyClean mem n mbimIpv4Layout pInfo
  ipv6 : DumpFamilyClean mem n mbimIpv6Layout pInfo

/-- The elements of the families that have an address.  The IPv4 address is looked at first, to see
whether they are printed. -/
structure AddressesClean (e : Endian) (d : MbimLog) (p : Profile) (pInfo : ℕ) : Prop where
  available : pInfo + 12 ≤ n
  ipv4 : field32 mem (pInfo + 4) &&& 0x1 ≠ 0 →
    ElementsClean mem n mbimIpv4Layout pInfo (field32 mem (pInfo + 4))
  shown : field32 mem (pInfo + 4) &&& 0x1 ≠ 0 →
    d.ShowsIp p (mbimAddrOn e (load mem (pInfo + (field32 mem (pInfo + 16)).toNat + 4) 4)) →
      DumpIpconfigClean mem n pInfo
  ipv6 : field32 mem (pInfo + 8) &&& 0x1 ≠ 0 →
    ElementsClean mem n mbimIpv6Layout pInfo (field32 mem (pInfo + 8))

/-- The status of a message that is an answer. -/
def mbimStatusAt : UInt32 :=
  if field32 mem 0 = 0x80000001 ∨ field32 mem 0 = 0x80000002 ∨ field32 mem 0 = 0x80000004 then
    field32 mem 12
  else if field32 mem 0 = mbimCommandDone then field32 mem 40
  else 0

/-- Where the status ends. -/
def StatusClean : Prop :=
  if field32 mem 0 = 0x80000001 ∨ field32 mem 0 = 0x80000002 ∨ field32 mem 0 = 0x80000004 then
    16 ≤ n
  else if field32 mem 0 = mbimCommandDone then 44 ≤ n
  else 4 ≤ n

/-- An answer that `mbim_ip_config` can take. -/
structure IpConfigClean (e : Endian) (d : MbimLog) (p : Profile) : Prop where
  status : StatusClean mem n
  refused : mbimStatusAt mem ≠ 0 → ¬ d.mbimVerbose → DumpClean mem n d.tmp
  length : mbimStatusAt mem = 0 → 48 ≤ n
  addresses : mbimStatusAt mem = 0 → field32 mem 44 ≠ 0 →
    AddressesClean mem n e d p commandBufferAt

end

section

variable {mem : ℕ → UInt8} {n : ℕ} {e : Endian} {l : MbimIpLayout} {pInfo : ℕ}

theorem within_readAddress (p : ℕ) {size : ℕ} (hsize : size ≠ 0) :
    Within (· < n) mem (readAddress e pInfo p size) ↔ AddressClean mem n pInfo p size := by
  rw [readAddress, Reads.within_bind, within_readField, run_readField,
    Reads.within_lt_bytes_of_ne _ hsize]
  exact ⟨fun h => ⟨h.1, h.2⟩, fun h => ⟨h.1, h.2⟩⟩

theorem within_readElement (hsize : l.size ≠ 0) :
    Within (· < n) mem (readElement e l pInfo) ↔ ElementClean mem n l pInfo := by
  simp only [readElement, Reads.within_bind, Reads.within_pure, within_readField, run_readField,
    Reads.within_lt_bytes_of_ne _ hsize]
  constructor
  · rintro ⟨hoffset, -, helement, -⟩
    exact ⟨hoffset, helement⟩
  · rintro ⟨hoffset, helement⟩
    exact ⟨hoffset, by omega, helement, trivial⟩

theorem within_readServers {α : Type} {second : ℕ → Reads UInt8 α} (hsize : l.size ≠ 0)
    (hsecond : ∀ dns2, Within (· < n) mem (second dns2) ↔ dns2 + l.size ≤ n) :
    Within (· < n) mem (readServers e l pInfo second) ↔ ServersClean mem n l pInfo := by
  simp only [readServers, Reads.within_bind, Reads.within_pure, Reads.within_optional,
    within_readField, run_readField, Reads.within_lt_bytes_of_ne _ hsize, hsecond]
  constructor
  · rintro ⟨hoffset, hfirst, hcount, hdns2, -⟩
    exact ⟨⟨hoffset, hfirst⟩, hcount, hdns2⟩
  · rintro ⟨⟨hoffset, hfirst⟩, hcount, hdns2⟩
    exact ⟨hoffset, hfirst, hcount, hdns2, trivial⟩

theorem within_readElements (hsize : l.size ≠ 0) (available : UInt32) :
    Within (· < n) mem (readElements e l pInfo available) ↔
      ElementsClean mem n l pInfo available := by
  simp only [readElements, Reads.within_bind, Reads.within_pure, Reads.within_optional,
    within_readElement hsize, within_readAddress _ hsize, within_readField,
    within_readServers hsize fun dns2 => Reads.within_lt_bytes_of_ne dns2 hsize]
  constructor
  · rintro ⟨helement, hgw, hdns, hmtu, -⟩
    exact ⟨helement, hgw, hdns, hmtu⟩
  · rintro ⟨helement, hgw, hdns, hmtu⟩
    exact ⟨helement, hgw, hdns, hmtu, trivial⟩

theorem within_dumpFamily {second : ℕ → Reads UInt8 Unit} (hsize : l.size ≠ 0)
    (hsecond : ∀ dns2, Within (· < n) mem (second dns2) ↔ dns2 + l.size ≤ n) :
    Within (· < n) mem (dumpFamily e l pInfo second) ↔ DumpFamilyClean mem n l pInfo := by
  simp only [dumpFamily, Reads.within_bind, Reads.within_when, Reads.within_map, within_readField,
    run_readField, within_readElement hsize, within_readAddress _ hsize,
    within_readServers hsize hsecond, Reads.within_lt_look_of_ne _ (Nat.succ_ne_zero _)]
  constructor
  · rintro ⟨havailable, helement, hgw, hdns, hmtu⟩
    exact ⟨havailable, helement, hgw, hdns, hmtu⟩
  · rintro ⟨havailable, helement, hgw, hdns, hmtu⟩
    exact ⟨havailable, helement, hgw, hdns, hmtu⟩

theorem within_mbimDumpIpconfig :
    Within (· < n) mem (mbimDumpIpconfig e pInfo) ↔ DumpIpconfigClean mem n pInfo := by
  have hsecond4 : ∀ dns2, Within (· < n) mem (look dns2 4) ↔ dns2 + mbimIpv4Layout.size ≤ n :=
    fun dns2 => Reads.within_lt_look_of_ne dns2 (by decide)
  -- The four bytes that are left out lie in between.
  have hsecond6 : ∀ dns2, Within (· < n) mem (do look dns2 4; look (dns2 + 8) 8) ↔
      dns2 + mbimIpv6Layout.size ≤ n := by
    intro dns2
    have hsize : mbimIpv6Layout.size = 16 := rfl
    rw [Reads.within_bind, Reads.within_lt_look_of_ne _ (by decide),
      Reads.within_lt_look_of_ne _ (by decide), hsize]
    omega
  rw [mbimDumpIpconfig, Reads.within_bind, Reads.within_bind,
    Reads.within_lt_look_of_ne _ (by decide), within_dumpFamily (by decide) hsecond4,
    within_dumpFamily (by decide) hsecond6]
  exact ⟨fun h => ⟨h.1, h.2.1, h.2.2⟩, fun h => ⟨h.1, h.2, h.3⟩⟩

theorem run_readElements_address (available : UInt32) :
    (run mem (readElements e l pInfo available)).address =
      load mem (pInfo + (field32 mem (pInfo + l.addressOffset)).toNat + 4) l.size := by
  simp only [readElements, readElement, Reads.run_bind, Reads.run_pure, run_readField,
    Reads.run_bytes]

/-- The IPv4 elements, and what is printed when their address is new. -/
theorem within_readIpv4 (d : MbimLog) (p : Profile) (available : UInt32) :
    Within (· < n) mem (readIpv4 e d p pInfo available) ↔
      ElementsClean mem n mbimIpv4Layout pInfo available ∧
        (d.ShowsIp p (mbimAddrOn e
            (load mem (pInfo + (field32 mem (pInfo + 16)).toNat + 4) 4)) →
          DumpIpconfigClean mem n pInfo) := by
  have hsize : mbimIpv4Layout.size ≠ 0 := by decide
  simp only [readIpv4, Reads.within_bind, Reads.within_when, Reads.within_pure, and_true,
    within_readElements hsize, within_mbimDumpIpconfig, run_readElements_address]
  exact Iff.rfl

theorem within_setMbimAddressReads (d : MbimLog) (p : Profile) :
    Within (· < n) mem (setMbimAddressReads e d p pInfo) ↔ AddressesClean mem n e d p pInfo := by
  have havailable4 : mbimIpv4Layout.configurationAvailable = 4 := rfl
  have havailable6 : mbimIpv6Layout.configurationAvailable = 8 := rfl
  have hsize : mbimIpv6Layout.size ≠ 0 := by decide
  simp only [setMbimAddressReads, Reads.within_bind, Reads.within_optional, Reads.within_pure,
    within_readField, run_readField, within_readIpv4, within_readElements hsize, havailable4,
    havailable6]
  constructor
  · rintro ⟨-, hipv4, havailable, hipv6, -⟩
    exact ⟨havailable, fun h => (hipv4 h).1, fun h => (hipv4 h).2, hipv6⟩
  · rintro ⟨havailable, hipv4, hshown, hipv6⟩
    exact ⟨by omega, fun h => ⟨hipv4 h, hshown h⟩, havailable, hipv6, trivial⟩

theorem run_mbimStatusCodeReads_eq : run mem (mbimStatusCodeReads e) = mbimStatusAt mem := by
  simp only [mbimStatusCodeReads, mbimStatusAt, Reads.run_bind, Reads.run_ite, Reads.run_pure,
    run_readField]

theorem within_mbimStatusCodeReads :
    Within (· < n) mem (mbimStatusCodeReads e) ↔ StatusClean mem n := by
  simp only [mbimStatusCodeReads, StatusClean, apply_ite (Within (· < n) mem), Reads.within_bind,
    Reads.within_pure, within_readField, run_readField]
  split_ifs
  case pos => omega
  case pos => omega
  case neg => exact and_iff_left trivial

/-- **The answers that `mbim_ip_config` takes without leaving them.** -/
theorem within_mbimIpConfigReads (d : MbimLog) (p : Profile) :
    Within (· < n) mem (mbimIpConfigReads e d p) ↔ IpConfigClean mem n e d p := by
  have hfour : StatusClean mem n → 4 ≤ n := by
    rw [StatusClean]
    split_ifs <;> omega
  simp only [mbimIpConfigReads, Reads.within_bind, Reads.within_ite, Reads.within_pure,
    within_mbimStatusCodeReads, run_mbimStatusCodeReads_eq, within_mbimDump, within_readField,
    run_readField, within_setMbimAddressReads, and_true, not_not, Bool.not_eq_true']
  constructor
  · rintro ⟨hstatus, hrefused, haccepted⟩
    exact ⟨hstatus, fun hne hquiet => (hrefused hne).2 (by simpa using hquiet),
      fun heq => (haccepted heq).1, fun heq hne => (haccepted heq).2.1 hne⟩
  · rintro ⟨hstatus, hrefused, hlength, haddresses⟩
    exact ⟨hstatus, fun hne => ⟨hfour hstatus, fun hquiet => hrefused hne (by simpa using hquiet)⟩,
      fun heq => ⟨hlength heq, haddresses heq, fun _ => trivial⟩⟩

end

/-! ### A message and its answer -/

/-- The request asks for the IP configuration. -/
structure AsksIpConfiguration (pRequest : ℕ → UInt8) : Prop where
  messageType : field32 pRequest 0 = mbimCommandMsg
  service : BasicConnect pRequest
  cid : field32 pRequest cidAt = mbimCidIpConfiguration
  commandType : field32 pRequest 40 = mbimCidCmdTypeQuery

/-- The request of `mbim_ip_config`. -/
theorem asksIpConfiguration_compose {e : Endian} {transactionId : UInt32}
    {mem ipInfo pRequest : ℕ → UInt8}
    (h : (composeBasicConnectCommand e transactionId (some mem) mbimCidIpConfiguration
      mbimCidCmdTypeQuery (some ipInfo) 60).1 = some pRequest) : AsksIpConfiguration pRequest := by
  have hlength : (60 : UInt32) ≠ 0 := by decide
  simp only [composeBasicConnectCommand, putHeader, MbimCM.put32_eq, Option.some_inj,
    if_pos hlength] at h
  subst h
  -- The fields are written from the front to the back.
  constructor
  · repeat rw [field32_store_of_le _ _ (by decide)]
    exact field32_store ..
  · rw [BasicConnect]
    repeat rw [load_store_of_le _ _ (by decide)]
    exact load_store_self ..
  · repeat rw [field32_store_of_le _ _ (by decide)]
    exact field32_store ..
  · repeat rw [field32_store_of_le _ _ (by decide)]
    exact field32_store ..

/-- The message answers an IP configuration query. -/
def AnswersQuery (e : Endian) (r : MbimReader) (msg : ℕ → UInt8) : Prop :=
  AnswersOn e r msg ∧ ∃ pRequest ∈ r.mbimPRequest, AsksIpConfiguration pRequest

/-- Of `n` bytes that have been received the reader looks at no other, and neither does
`mbim_ip_config` when it gets the copy, behind which there can be anything. -/
structure ReadsReceived (e : Endian) (d d' : MbimLog) (r : MbimReader) (p : Profile) (alloc : Bool)
    (msg : ℕ → UInt8) (n : ℕ) : Prop where
  recv : Within (· < n) msg (mbimRecvCommandReads e d r alloc)
  ipConfig : AnswersQuery e r msg → alloc → ∀ copy : ℕ → UInt8,
    (∀ i < (field32 msg 4).toNat, copy i = msg i) →
      Within (· < min (field32 msg 4).toNat n) copy (mbimIpConfigReads e d' p)

/-- **Only received bytes are read exactly when the lengths and offsets that are used stay in
them.** -/
theorem readsReceived_iff (e : Endian) (d d' : MbimLog) (r : MbimReader) (p : Profile)
    (alloc : Bool) (msg : ℕ → UInt8) (n : ℕ) :
    ReadsReceived e d d' r p alloc msg n ↔
      RecvClean e d r alloc msg n ∧ (AnswersQuery e r msg → alloc →
        IpConfigClean msg (field32 msg 4).toNat e d' p) := by
  constructor
  · rintro ⟨hrecv, hip⟩
    have hclean := (within_mbimRecvCommandReads d alloc).1 hrecv
    refine ⟨hclean, fun hquery halloc => ?_⟩
    have hlength := hclean.answer hquery.1 halloc
    have hcopy := hip hquery halloc msg fun _ _ => rfl
    rw [Nat.min_eq_left hlength] at hcopy
    exact (within_mbimIpConfigReads d' p).1 hcopy
  · rintro ⟨hclean, hip⟩
    refine ⟨(within_mbimRecvCommandReads d alloc).2 hclean, fun hquery halloc copy hcopy => ?_⟩
    have hlength := hclean.answer hquery.1 halloc
    rw [Nat.min_eq_left hlength, Reads.within_prefix_congr hcopy (Nat.le_refl _)]
    exact (within_mbimIpConfigReads d' p).2 (hip hquery halloc)

namespace LongAnswers

/-- A query; only the fields up to the information buffer are looked at. -/
def pRequest : ℕ → UInt8 :=
  byteAt ([3, 0, 0, 0, 108, 0, 0, 0, 1, 0, 0, 0, 1, 0, 0, 0, 0, 0, 0, 0] ++ uuidBasicConnect ++
    [15, 0, 0, 0, 0, 0, 0, 0, 60, 0, 0, 0])

def reader : MbimReader := ⟨some pRequest, 0, 0, 0, 0, 0⟩

/-- An answer with this length and these bytes behind the status. -/
def answer (length : UInt32) (info : List UInt8) : ℕ → UInt8 :=
  byteAt ([3, 0, 0, 0x80] ++ le32 length ++ [1, 0, 0, 0, 1, 0, 0, 0, 0, 0, 0, 0] ++
    uuidBasicConnect ++ [15, 0, 0, 0, 0, 0, 0, 0] ++ info)

/-- A length of 60 and an IPv4 element at offset 1000. -/
def farInfo : List UInt8 :=
  [60, 0, 0, 0, 0, 0, 0, 0, 1, 0, 0, 0, 0, 0, 0, 0, 1, 0, 0, 0, 0xe8, 3, 0, 0] ++
    List.replicate 40 0

end LongAnswers

open LongAnswers in
/-- An answer of 48 bytes that says it has 1000, and one of 108 bytes, which it says, with an
element at offset 1000. -/
theorem not_readsReceived :
    ¬ ReadsReceived .little ⟨false, false⟩ ⟨false, false⟩ reader (.default true false) true
        (answer 1000 [0, 0, 0, 0]) 48 ∧
      ¬ ReadsReceived .little ⟨false, false⟩ ⟨false, false⟩ reader (.default true false) true
        (answer 108 farInfo) 108 := by
  constructor
  · intro h
    have hclean := (within_mbimRecvCommandReads _ _).1 h.recv
    have hlength := hclean.answer (by decide) rfl
    revert hlength
    decide
  · intro h
    have hquery : AnswersQuery .little reader (answer 108 farInfo) :=
      ⟨by decide, pRequest, rfl, ⟨by decide, by decide, by decide, by decide⟩⟩
    have hcopy := h.ipConfig hquery rfl (answer 108 farInfo) fun _ _ => rfl
    have hclean := (within_mbimIpConfigReads _ _).1 hcopy
    have helement := ((hclean.addresses (by decide) (by decide)).ipv4 (by decide)).element.element
    revert helement
    decide

end QuectelCM

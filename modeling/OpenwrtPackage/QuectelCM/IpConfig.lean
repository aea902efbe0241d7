/-
**The addresses that an MBIM modem gives.**

The program has two back-ends that fill in the addresses of the profile.  A QMI modem sends a TLV
for each number, the least significant byte first; an MBIM modem sends a structure with offsets, in
which the addresses stand in network order.  `mbim_ip_config` turns an address over with
`mbim2qmi_ipv4addr`; it does the same with the subnet mask and the MTU, which are numbers already.

* `QuectelCM.mbimIpConfig` — `mbim_ip_config`;
* `QuectelCM.NetConfig` — what the network assigns;
* `QuectelCM.MbimEncodes`, `QuectelCM.QmiEncodes` — a message, or two, that report it;
* `QuectelCM.backends_agree_iff` — **both back-ends store the same exactly when what is turned over
  is a palindrome, and what is not there was zero before**;
* `QuectelCM.backends_disagree` — a prefix of 24 bits and an MTU of 1500.
-/
import Mathlib.Data.Option.Basic
import Mathlib.Tactic.IntervalCases
import OpenwrtPackage.Lib.ByteOrder
import OpenwrtPackage.Qmi.Fields
import OpenwrtPackage.QuectelCM.Requests

set_option relaxedAutoImplicit false
set_option autoImplicit false

namespace QuectelCM

open Qmi Bytes Tlv

/-! ### `mbim_ip_config` -/

/-- `mbim2qmi_ipv4addr` -/
def mbim2qmiIpv4addr (addr : UInt32) : UInt32 :=
  addr >>> 24 ||| addr >>> 8 &&& (0xff00 : UInt32) ||| addr <<< 8 &&& (0xff0000 : UInt32) |||
    addr <<< 24

/-- The fields of `MBIM_IP_CONFIGURATION_INFO_T` for one family.  An offset counts from the front of
the structure. -/
structure MbimIpInfo where
  configurationAvailable : UInt32
  addressOffset : UInt32
  gatewayOffset : UInt32
  dnsServerCount : UInt32
  dnsServerOffset : UInt32
  mtu : UInt32

/-- `pInfo->IPv4…` -/
def mbimIpv4Info (pInfo : List UInt8) : MbimIpInfo :=
  ⟨le32At pInfo 4, le32At pInfo 16, le32At pInfo 28, le32At pInfo 36, le32At pInfo 40,
    le32At pInfo 52⟩

/-- `pInfo->IPv6…` -/
def mbimIpv6Info (pInfo : List UInt8) : MbimIpInfo :=
  ⟨le32At pInfo 8, le32At pInfo 24, le32At pInfo 32, le32At pInfo 44, le32At pInfo 48,
    le32At pInfo 56⟩

/-- A bit of `ConfigurationAvailable`: 1 for the address, 2 the gateway, 4 the DNS servers, 8 the
MTU. -/
def MbimIpInfo.Has (i : MbimIpInfo) (bit : UInt32) : Prop := i.configurationAvailable &&& bit ≠ 0

instance (i : MbimIpInfo) (bit : UInt32) : Decidable (i.Has bit) :=
  inferInstanceAs (Decidable (_ ≠ _))

/-- `pAddress` -/
def MbimIpInfo.pAddress (i : MbimIpInfo) : ℕ := i.addressOffset.toNat

/-- `prefix`, an `UINT8` -/
def MbimIpInfo.prefixOf (i : MbimIpInfo) (pInfo : List UInt8) : UInt8 :=
  (le32At pInfo i.pAddress).toUInt8

/-- `gw` -/
def MbimIpInfo.gw (i : MbimIpInfo) : Option ℕ :=
  if i.Has 0x2 then some i.gatewayOffset.toNat else none

/-- `dns1` -/
def MbimIpInfo.dns1 (i : MbimIpInfo) : Option ℕ :=
  if i.Has 0x4 then some i.dnsServerOffset.toNat else none

/-- `dns2`, where an address has `size` bytes -/
def MbimIpInfo.dns2 (i : MbimIpInfo) (size : ℕ) : Option ℕ :=
  if i.Has 0x4 ∧ i.dnsServerCount = 2 then some (i.dnsServerOffset.toNat + size) else none

/-- `mbim2qmi_ipv4addr(*(uint32_t *)p)` -/
def mbimAddr (pInfo : List UInt8) (p : ℕ) : UInt32 := mbim2qmiIpv4addr (le32At pInfo p)

/-- `0xFFFFFFFF>>(32-prefix)<<(32-prefix)`, which C defines for a prefix of 1 to 32 bits. -/
def prefixMask (prefixLength : UInt8) : UInt32 :=
  let n := 32 - prefixLength.toUInt32
  (0xFFFFFFFF >>> n) <<< n

/-- The IPv4 part, with the MTU that is in `mtu`.  The address is compared first, for the log. -/
def mbimIpv4 (pInfo : List UInt8) (mtu : UInt32) (ipv4 : Ipv4) : Ipv4 :=
  let i := mbimIpv4Info pInfo
  { address := mbimAddr pInfo (i.pAddress + 4)
    gateway := i.gw.elim ipv4.gateway (mbimAddr pInfo)
    subnetMask := mbim2qmiIpv4addr (prefixMask (i.prefixOf pInfo))
    dnsPrimary := i.dns1.elim ipv4.dnsPrimary (mbimAddr pInfo)
    dnsSecondary := (i.dns2 4).elim ipv4.dnsSecondary (mbimAddr pInfo)
    mtu := mbim2qmiIpv4addr mtu }

/-- The IPv6 part. -/
def mbimIpv6 (pInfo : List UInt8) (mtu : UInt32) (ipv6 : Ipv6) : Ipv6 :=
  let i := mbimIpv6Info pInfo
  { address := bytesAt pInfo (i.pAddress + 4) 16
    gateway := i.gw.elim ipv6.gateway (bytesAt pInfo · 16)
    dnsPrimary := i.dns1.elim ipv6.dnsPrimary (bytesAt pInfo · 16)
    dnsSecondary := (i.dns2 16).elim ipv6.dnsSecondary (bytesAt pInfo · 16)
    prefixLengthIPAddr := i.prefixOf pInfo
    prefixLengthGateway := i.prefixOf pInfo
    mtu := mbim2qmiIpv4addr mtu }

/-- The variable `mtu` behind the IPv4 part. -/
def mtuAfterIpv4 (pInfo : List UInt8) : UInt32 :=
  let i := mbimIpv4Info pInfo
  if i.Has 0x1 ∧ i.Has 0x8 then i.mtu else 1500

/-- The variable `mtu` behind the IPv6 part; it is not set again in between. -/
def mtuAfterIpv6 (pInfo : List UInt8) : UInt32 :=
  let i := mbimIpv6Info pInfo
  if i.Has 0x8 then i.mtu else mtuAfterIpv4 pInfo

/-- The information buffer is copied into the profile. -/
def setMbimAddress (pInfo : List UInt8) (p : Profile) : Profile :=
  { p with
    ipv4 := if (mbimIpv4Info pInfo).Has 0x1 then mbimIpv4 pInfo (mtuAfterIpv4 pInfo) p.ipv4
      else p.ipv4
    ipv6 := if (mbimIpv6Info pInfo).Has 0x1 then mbimIpv6 pInfo (mtuAfterIpv6 pInfo) p.ipv6
      else p.ipv6 }

/-- What `mbim_send_command` leaves in `err` and `pCmdDone`. -/
structure MbimAnswer where
  err : ℤ
  pCmdDone : Option (List UInt8)

/-- `mbim_status_code`: the status of a message that is an answer. -/
def mbimStatusCode (pMsgHdr : List UInt8) : ℤ :=
  let type := le32At pMsgHdr 0
  if type = 0x80000001 ∨ type = 0x80000002 ∨ type = 0x80000004 then
    (le32At pMsgHdr 12).toBitVec.toInt
  else if type = 0x80000003 then (le32At pMsgHdr 40).toBitVec.toInt
  else 0

/-- `mbim_check_err`: the message, or what the function returns instead. -/
def mbimCheckErr (a : MbimAnswer) : Except ℤ (List UInt8) :=
  let status := a.pCmdDone.elim 0 mbimStatusCode
  if a.err ≠ 0 then .error a.err
  else if status ≠ 0 then .error status
  else a.pCmdDone.elim (.error 8888) .ok

/-- `pCmdDone->InformationBufferLength` -/
def informationBufferLength (pCmdDone : List UInt8) : UInt32 := le32At pCmdDone 44

/-- `pCmdDone->InformationBuffer` -/
def informationBuffer (pCmdDone : List UInt8) : List UInt8 := pCmdDone.drop 48

/-- `mbim_ip_config`: the result and the profile. -/
def mbimIpConfig (a : MbimAnswer) (p : Profile) : ℤ × Profile :=
  match mbimCheckErr a with
  | .error err => (err, p)
  | .ok pCmdDone =>
      if informationBufferLength pCmdDone ≠ 0 then
        (a.err, setMbimAddress (informationBuffer pCmdDone) p)
      else (a.err, p)

/-! ### What the network assigns -/

/-- A configuration of IPv4; the most significant byte of an address is the first one. -/
structure NetIpv4 where
  address : UInt32
  prefixLength : ℕ
  one_le : 1 ≤ prefixLength
  le_32 : prefixLength ≤ 32
  gateway : Option UInt32
  /-- the first server, and a second one -/
  dns : Option (UInt32 × Option UInt32)
  mtu : Option UInt32

/-- A configuration of IPv6: what is compared of it. -/
structure NetIpv6 where
  address : List UInt8
  length_address : address.length = 16
  prefixLength : UInt8
  mtu : Option UInt32

structure NetConfig where
  ipv4 : Option NetIpv4
  ipv6 : Option NetIpv6

/-- The subnet mask as a number. -/
def netmask (prefixLength : ℕ) : UInt32 := UInt32.ofNat (2 ^ 32 - 2 ^ (32 - prefixLength))

def NetIpv4.dnsPrimary (v : NetIpv4) : Option UInt32 := v.dns.map Prod.fst

def NetIpv4.dnsSecondary (v : NetIpv4) : Option UInt32 := v.dns.bind Prod.snd

/-- The flag tells whether there is a field, and then it is stored so. -/
def Flagged {α : Type} (flag : Prop) (field : Option α) (stored : α → Prop) : Prop :=
  match field with
  | some x => flag ∧ stored x
  | none => ¬ flag

instance {α : Type} (flag : Prop) (field : Option α) (stored : α → Prop) [Decidable flag]
    [DecidablePred stored] : Decidable (Flagged flag field stored) :=
  match field with
  | some x => inferInstanceAs (Decidable (flag ∧ stored x))
  | none => inferInstanceAs (Decidable (¬ flag))

/-- The IPv4 part of an information buffer, wherever the elements stand. -/
structure MbimEncodesIpv4 (pInfo : List UInt8) (v : NetIpv4) : Prop where
  prefixLength : le32At pInfo (mbimIpv4Info pInfo).pAddress = UInt32.ofNat v.prefixLength
  address : bytesAt pInfo ((mbimIpv4Info pInfo).pAddress + 4) 4 = be32 v.address
  gateway : Flagged ((mbimIpv4Info pInfo).Has 0x2) v.gateway fun gateway =>
    bytesAt pInfo (mbimIpv4Info pInfo).gatewayOffset.toNat 4 = be32 gateway
  dnsPrimary : Flagged ((mbimIpv4Info pInfo).Has 0x4) v.dnsPrimary fun dns =>
    bytesAt pInfo (mbimIpv4Info pInfo).dnsServerOffset.toNat 4 = be32 dns
  dnsSecondary : Flagged ((mbimIpv4Info pInfo).Has 0x4 ∧ (mbimIpv4Info pInfo).dnsServerCount = 2)
    v.dnsSecondary fun dns =>
      bytesAt pInfo ((mbimIpv4Info pInfo).dnsServerOffset.toNat + 4) 4 = be32 dns
  mtu : Flagged ((mbimIpv4Info pInfo).Has 0x8) v.mtu fun mtu => (mbimIpv4Info pInfo).mtu = mtu

structure MbimEncodesIpv6 (pInfo : List UInt8) (v : NetIpv6) : Prop where
  prefixLength : le32At pInfo (mbimIpv6Info pInfo).pAddress = v.prefixLength.toUInt32
  address : bytesAt pInfo ((mbimIpv6Info pInfo).pAddress + 4) 16 = v.address
  mtu : Flagged ((mbimIpv6Info pInfo).Has 0x8) v.mtu fun mtu => (mbimIpv6Info pInfo).mtu = mtu

/-- The answer of an MBIM modem that reports the configuration. -/
structure MbimEncodes (m : List UInt8) (c : NetConfig) : Prop where
  messageType : le32At m 0 = 0x80000003
  status : le32At m 40 = 0
  length : informationBufferLength m ≠ 0
  ipv4 : Flagged ((mbimIpv4Info (informationBuffer m)).Has 0x1) c.ipv4
    (MbimEncodesIpv4 (informationBuffer m))
  ipv6 : Flagged ((mbimIpv6Info (informationBuffer m)).Has 0x1) c.ipv6
    (MbimEncodesIpv6 (informationBuffer m))

/-- A response of a QMI modem with these TLVs and no error. -/
structure QmiResponse (m : List UInt8) (fs : List Field) : Prop where
  tlvs : m.drop firstTLV = encodeAll fs
  length : qmuxMsgHdrLength m = (encodeAll fs).length
  size : (encodeAll fs).length < 65536
  result : qmuxResult m = 0
  error : qmuxError m = 0

/-- The types of the TLVs about IPv4, without the MTU. -/
def ipv4Types : List UInt8 := [0x15, 0x16, 0x20, 0x21, 0x1E]

structure QmiEncodesIpv4 (fs : List Field) (v : NetIpv4) : Prop where
  address : lookup 0x1E fs = some (le32 v.address)
  subnetMask : lookup 0x21 fs = some (le32 (netmask v.prefixLength))
  gateway : lookup 0x20 fs = v.gateway.map le32
  dnsPrimary : lookup 0x15 fs = v.dnsPrimary.map le32
  dnsSecondary : lookup 0x16 fs = v.dnsSecondary.map le32
  mtu : lookup 0x29 fs = v.mtu.map le32

structure QmiEncodesIpv6 (fs : List Field) (v : NetIpv6) : Prop where
  address : lookup 0x25 fs = some (v.address ++ [v.prefixLength])
  mtu : lookup 0x29 fs = v.mtu.map le32
  ipv4 : ∀ type ∈ ipv4Types, lookup type fs = none

/-- The handle of a call and the response for its family: one for each family that the network has
configured. -/
structure QmiEncodes (r4 r6 : Option (UInt32 × List UInt8)) (c : NetConfig) : Prop where
  ipv4 : Option.Rel (fun r v => r.1 ≠ 0 ∧ ∃ fs, QmiResponse r.2 fs ∧ QmiEncodesIpv4 fs v) r4 c.ipv4
  ipv6 : Option.Rel (fun r v => r.1 ≠ 0 ∧ ∃ fs, QmiResponse r.2 fs ∧ QmiEncodesIpv6 fs v) r6 c.ipv6

/-- `requestGetIPAddress` of the QMI back-end for each family that has a call. -/
def qmiGetIPAddress (r4 r6 : Option (UInt32 × List UInt8)) (p : Profile) : Profile :=
  let p := r4.elim p fun r => (requestGetIPAddress (.response r.2) .v4 r.1 p).2
  r6.elim p fun r => (requestGetIPAddress (.response r.2) .v6 r.1 p).2

/-! ### What should hold -/

/-- Of the families that are configured, both profiles have the same addresses; and an MTU that IPv6
does not have is not the one of IPv4. -/
structure BackendsAgree (c : NetConfig) (mbim qmi : Profile) : Prop where
  ipv4 : c.ipv4 ≠ none → mbim.ipv4 = qmi.ipv4
  ipv6 : c.ipv6 ≠ none → mbim.ipv6.address = qmi.ipv6.address ∧
    mbim.ipv6.prefixLengthIPAddr = qmi.ipv6.prefixLengthIPAddr ∧ mbim.ipv6.mtu = qmi.ipv6.mtu
  mtu : ∀ v4 ∈ c.ipv4, ∀ v6 ∈ c.ipv6, v6.mtu = none → ∀ mtu ∈ v4.mtu, mtu ≠ 0 →
    mbim.ipv6.mtu ≠ mbim.ipv4.mtu

/-- The bytes of a number read the same in either order. -/
def Palindrome (n : UInt32) : Prop := be32 n = le32 n

/-- What is turned over does not show it, and what is not there was zero before. -/
structure Symmetric (c : NetConfig) (p : Profile) : Prop where
  prefixLength : ∀ v ∈ c.ipv4, v.prefixLength = 32
  mtu : ∀ v ∈ c.ipv4, ∃ mtu ∈ v.mtu, Palindrome mtu
  gateway : ∀ v ∈ c.ipv4, v.gateway = none → p.ipv4.gateway = 0
  dnsPrimary : ∀ v ∈ c.ipv4, v.dnsPrimary = none → p.ipv4.dnsPrimary = 0
  dnsSecondary : ∀ v ∈ c.ipv4, v.dnsSecondary = none → p.ipv4.dnsSecondary = 0
  ipv6Mtu : ∀ v ∈ c.ipv6, (∃ mtu ∈ v.mtu, Palindrome mtu) ∨
    v.mtu = none ∧ ∃ w ∈ c.ipv4, w.mtu = some 0

/-! ### What the MBIM back-end stores -/

theorem mbim2qmiIpv4addr_eq (addr : UInt32) : mbim2qmiIpv4addr addr = bswap32 addr := rfl

theorem le32At_of_bytesAt {m bs : List UInt8} {p : ℕ} (h : bytesAt m p 4 = bs) :
    le32At m p = le32At bs 0 := by
  rw [← h]
  rfl

/-- An address in network order is turned into the number that it is. -/
theorem mbimAddr_of_bytesAt {pInfo : List UInt8} {p : ℕ} {addr : UInt32}
    (h : bytesAt pInfo p 4 = be32 addr) : mbimAddr pInfo p = addr := by
  rw [mbimAddr, le32At_of_bytesAt h, mbim2qmiIpv4addr_eq, ← List.append_nil (be32 addr),
    le32At_be32, bswap32_bswap32]

theorem prefixMask_eq {n : ℕ} (h1 : 1 ≤ n) (h32 : n ≤ 32) :
    prefixMask (UInt32.ofNat n).toUInt8 = netmask n := by
  interval_cases n <;> rfl

/-- A subnet mask is a palindrome only when it is the one of a host. -/
theorem bswap32_netmask_iff {n : ℕ} (h1 : 1 ≤ n) (h32 : n ≤ 32) :
    bswap32 (netmask n) = netmask n ↔ n = 32 := by
  interval_cases n <;> decide

/-- A field that is read through a pointer, which is there when the flag is. -/
theorem elim_of_flagged {α : Type} {flag : Prop} [Decidable flag] {field : Option α}
    {stored : α → Prop} {p : ℕ} {read : ℕ → α} (h : Flagged flag field stored)
    (hread : ∀ x, stored x → read p = x) (old : α) :
    (if flag then some p else none).elim old read = field.getD old := by
  cases field with
  | none => rw [if_neg h, Option.elim_none, Option.getD_none]
  | some x => rw [if_pos h.1, Option.elim_some, Option.getD_some, hread x h.2]

section

variable {pInfo : List UInt8} {v : NetIpv4}

theorem mbimIpv4_eq (h : MbimEncodesIpv4 pInfo v) (mtu : UInt32) (ipv4 : Ipv4) :
    mbimIpv4 pInfo mtu ipv4 =
      { address := v.address
        gateway := v.gateway.getD ipv4.gateway
        subnetMask := bswap32 (netmask v.prefixLength)
        dnsPrimary := v.dnsPrimary.getD ipv4.dnsPrimary
        dnsSecondary := v.dnsSecondary.getD ipv4.dnsSecondary
        mtu := bswap32 mtu } := by
  have hgw := elim_of_flagged h.gateway (fun _ => mbimAddr_of_bytesAt) ipv4.gateway
  have hdns1 := elim_of_flagged h.dnsPrimary (fun _ => mbimAddr_of_bytesAt) ipv4.dnsPrimary
  have hdns2 := elim_of_flagged h.dnsSecondary (fun _ => mbimAddr_of_bytesAt) ipv4.dnsSecondary
  have hmask : prefixMask ((mbimIpv4Info pInfo).prefixOf pInfo) = netmask v.prefixLength := by
    rw [MbimIpInfo.prefixOf, h.prefixLength, prefixMask_eq v.one_le v.le_32]
  rw [← hgw, ← hdns1, ← hdns2, ← hmask, ← mbimAddr_of_bytesAt h.address]
  rfl

end

theorem mtu_of_flagged {flag : Prop} [Decidable flag] {field : Option UInt32} {mtu : UInt32}
    (h : Flagged flag field (mtu = ·)) (old : UInt32) :
    (if flag then mtu else old) = field.getD old := by
  cases field with
  | none => rw [if_neg h, Option.getD_none]
  | some x => rw [if_pos h.1, h.2, Option.getD_some]

section

variable {m : List UInt8} {c : NetConfig}

theorem mtuAfterIpv4_eq (h : MbimEncodes m c) :
    mtuAfterIpv4 (informationBuffer m) = (c.ipv4.bind NetIpv4.mtu).getD 1500 := by
  have hflag := h.ipv4
  unfold mtuAfterIpv4
  cases hc : c.ipv4 with
  | none =>
      rw [hc] at hflag
      rw [if_neg fun hcc => hflag hcc.1, Option.bind_none, Option.getD_none]
  | some v =>
      rw [hc] at hflag
      simp only [hflag.1, true_and]
      exact mtu_of_flagged hflag.2.mtu 1500

theorem mtuAfterIpv6_eq (h : MbimEncodes m c) {v : NetIpv6} (hv : c.ipv6 = some v) :
    mtuAfterIpv6 (informationBuffer m) = v.mtu.getD ((c.ipv4.bind NetIpv4.mtu).getD 1500) := by
  have hflag := h.ipv6
  rw [hv] at hflag
  rw [← mtuAfterIpv4_eq h]
  exact mtu_of_flagged hflag.2.mtu _

theorem mbimIpConfig_eq (h : MbimEncodes m c) (p : Profile) :
    mbimIpConfig ⟨0, some m⟩ p = (0, setMbimAddress (informationBuffer m) p) := by
  have hstatus : mbimStatusCode m = 0 := by
    unfold mbimStatusCode
    dsimp only
    rw [h.messageType, if_neg (by decide), if_pos rfl, h.status]
    rfl
  have hcheck : mbimCheckErr ⟨0, some m⟩ = .ok m := by
    unfold mbimCheckErr
    dsimp only
    rw [Option.elim_some, hstatus]
    rfl
  unfold mbimIpConfig
  rw [hcheck]
  exact if_pos h.length

end

/-! ### What the QMI back-end stores -/

theorem tlvUlong_eq {m : List UInt8} {type : UInt8} {field : Option UInt32}
    (h : tlvValue m type = field.map le32) : tlvUlong m type.toNat 0 = field.getD 0 := by
  unfold tlvUlong
  cases field with
  | none =>
      rw [Option.map_none] at h
      rw [Option.map_eq_none_iff.1 h]
      rfl
  | some n =>
      obtain ⟨p, hp, hvalue⟩ := Option.map_eq_some_iff.1 h
      have hlen : tlvLength m p = 4 := by simpa [bytesAt] using congrArg List.length hvalue
      rw [hlen] at hvalue
      rw [hp]
      show le32At m (p + qmiTlvHdrSize) = n
      rw [le32At_of_bytesAt hvalue, ← List.append_nil (le32 n), le32At_le32]

theorem tlvUlong_none {m : List UInt8} {type : UInt8} (h : tlvValue m type = none) (old : UInt32) :
    tlvUlong m type.toNat old = old := by
  rw [tlvUlong, Option.map_eq_none_iff.1 h]

theorem tlvIpv6Addr_eq {m : List UInt8} {type : UInt8} {address : List UInt8} {b : UInt8}
    (h : tlvValue m type = some (address ++ [b])) (hlength : address.length = 16)
    (old : List UInt8 × UInt8) : tlvIpv6Addr m type.toNat old = (address, b) := by
  obtain ⟨p, hp, hvalue⟩ := Option.map_eq_some_iff.1 h
  have hlen : tlvLength m p = 17 := by
    have hlength' := congrArg List.length hvalue
    rw [List.length_append, hlength] at hlength'
    simpa [bytesAt] using hlength'
  rw [hlen, bytesAt, List.range_succ, List.map_append] at hvalue
  obtain ⟨haddress, hb⟩ := List.append_inj hvalue (by simp [hlength])
  rw [tlvIpv6Addr, hp]
  exact Prod.ext haddress (List.cons.inj hb).1

section

variable {m : List UInt8} {fs : List Field}

theorem QmiResponse.tlvValue_eq (h : QmiResponse m fs) (type : UInt8) :
    tlvValue m type = lookup type fs :=
  tlvValue_eq_lookup type h.tlvs h.length h.size

theorem QmiResponse.check (h : QmiResponse m fs) : qmiRspCheck (.response m) = .ok m := by
  simp only [qmiRspCheck, h.result, h.error, ne_eq, not_true, or_self, if_false]

theorem requestGetIPAddress_eq (h : QmiResponse m fs) (f : IpFamily) {handle : UInt32}
    (hhandle : handle ≠ 0) (p : Profile) :
    (requestGetIPAddress (.response m) f handle p).2 = setAddress (clearAddress p f) f m := by
  rw [requestGetIPAddress, if_neg hhandle, h.check]

theorem qmiIpv4_eq (h : QmiResponse m fs) {v : NetIpv4} (hv : QmiEncodesIpv4 fs v) (p : Profile) :
    (setAddress (clearAddress p .v4) .v4 m).ipv4 =
      { address := v.address
        gateway := v.gateway.getD 0
        subnetMask := netmask v.prefixLength
        dnsPrimary := v.dnsPrimary.getD 0
        dnsSecondary := v.dnsSecondary.getD 0
        mtu := v.mtu.getD 0 } := by
  have haddress := @tlvUlong_eq m 0x1E (some v.address) ((h.tlvValue_eq _).trans hv.address)
  have hmask := @tlvUlong_eq m 0x21 (some (netmask v.prefixLength))
    ((h.tlvValue_eq _).trans hv.subnetMask)
  have hgateway := tlvUlong_eq ((h.tlvValue_eq _).trans hv.gateway)
  have hdns1 := tlvUlong_eq ((h.tlvValue_eq _).trans hv.dnsPrimary)
  have hdns2 := tlvUlong_eq ((h.tlvValue_eq _).trans hv.dnsSecondary)
  have hmtu := tlvUlong_eq ((h.tlvValue_eq _).trans hv.mtu)
  rw [Option.getD_some] at haddress hmask
  rw [← haddress, ← hmask, ← hgateway, ← hdns1, ← hdns2, ← hmtu]
  rfl

/-- A response about IPv6 leaves the addresses of IPv4 as they are. -/
theorem runtimeIpv4_of_ipv6 (h : QmiResponse m fs) {v : NetIpv6} (hv : QmiEncodesIpv6 fs v)
    (ipv4 : Ipv4) : runtimeIpv4 m ipv4 = ipv4 := by
  have hnone : ∀ type ∈ ipv4Types, ∀ old, tlvUlong m type.toNat old = old := fun type ht =>
    tlvUlong_none ((h.tlvValue_eq type).trans (hv.ipv4 type ht))
  obtain ⟨address, gateway, subnetMask, dnsPrimary, dnsSecondary, mtu⟩ := ipv4
  exact (Ipv4.mk.injEq ..).mpr ⟨hnone 0x1E (by decide) address, hnone 0x20 (by decide) gateway,
    hnone 0x21 (by decide) subnetMask, hnone 0x15 (by decide) dnsPrimary,
    hnone 0x16 (by decide) dnsSecondary, rfl⟩

theorem qmiIpv6_eq (h : QmiResponse m fs) {v : NetIpv6} (hv : QmiEncodesIpv6 fs v) (p : Profile) :
    (setAddress (clearAddress p .v6) .v6 m).ipv6.address = v.address ∧
      (setAddress (clearAddress p .v6) .v6 m).ipv6.prefixLengthIPAddr = v.prefixLength ∧
      (setAddress (clearAddress p .v6) .v6 m).ipv6.mtu = v.mtu.getD 0 := by
  have haddress := tlvIpv6Addr_eq ((h.tlvValue_eq _).trans hv.address) v.length_address
  have hmtu := tlvUlong_eq ((h.tlvValue_eq _).trans hv.mtu)
  exact ⟨congrArg Prod.fst (haddress _), congrArg Prod.snd (haddress _), hmtu⟩

end

/-! ### Agreement -/

theorem bswap32_eq_zero_iff (n : UInt32) : bswap32 n = 0 ↔ n = 0 :=
  ⟨fun h => bswap32_inj.1 h, congrArg bswap32⟩

/-- An MTU is stored alike when there is one that reads the same in either order. -/
theorem mtu_agree_iff (mtu : Option UInt32) :
    bswap32 (mtu.getD 1500) = mtu.getD 0 ↔ ∃ n ∈ mtu, Palindrome n := by
  cases mtu with
  | none => simpa using by decide
  | some n => simpa [Palindrome] using bswap32_eq_self_iff n

theorem getD_agree_iff (field : Option UInt32) (old : UInt32) :
    field.getD old = field.getD 0 ↔ (field = none → old = 0) := by
  cases field <;> simp

section

variable {m : List UInt8} {r4 r6 : Option (UInt32 × List UInt8)} {c : NetConfig}

theorem qmiGetIPAddress_ipv4 (h : QmiEncodes r4 r6 c) {v : NetIpv4} (hv : c.ipv4 = some v)
    (p : Profile) : (qmiGetIPAddress r4 r6 p).ipv4 =
      { address := v.address
        gateway := v.gateway.getD 0
        subnetMask := netmask v.prefixLength
        dnsPrimary := v.dnsPrimary.getD 0
        dnsSecondary := v.dnsSecondary.getD 0
        mtu := v.mtu.getD 0 } := by
  obtain ⟨h4, h6⟩ := h
  rw [hv] at h4
  obtain ⟨hhandle, fs, hfs, henc⟩ := h4
  rw [← qmiIpv4_eq hfs henc p, ← requestGetIPAddress_eq hfs .v4 hhandle p]
  generalize c.ipv6 = v6 at h6
  cases h6 with
  | none => rfl
  | some hr =>
      obtain ⟨hhandle6, fs6, hfs6, henc6⟩ := hr
      unfold qmiGetIPAddress
      dsimp only [Option.elim_some]
      rw [requestGetIPAddress_eq hfs6 .v6 hhandle6]
      exact runtimeIpv4_of_ipv6 hfs6 henc6 _

theorem qmiGetIPAddress_ipv6 (h : QmiEncodes r4 r6 c) {v : NetIpv6} (hv : c.ipv6 = some v)
    (p : Profile) : (qmiGetIPAddress r4 r6 p).ipv6.address = v.address ∧
      (qmiGetIPAddress r4 r6 p).ipv6.prefixLengthIPAddr = v.prefixLength ∧
      (qmiGetIPAddress r4 r6 p).ipv6.mtu = v.mtu.getD 0 := by
  have h6 := h.ipv6
  rw [hv] at h6
  obtain ⟨hhandle, fs, hfs, henc⟩ := h6
  unfold qmiGetIPAddress
  dsimp only [Option.elim_some]
  rw [requestGetIPAddress_eq hfs .v6 hhandle]
  exact qmiIpv6_eq hfs henc _

theorem ipv4_agree_iff (hm : MbimEncodes m c) (hq : QmiEncodes r4 r6 c) {v : NetIpv4}
    (hv : c.ipv4 = some v) (p : Profile) :
    (mbimIpConfig ⟨0, some m⟩ p).2.ipv4 = (qmiGetIPAddress r4 r6 p).ipv4 ↔
      v.prefixLength = 32 ∧ (∃ mtu ∈ v.mtu, Palindrome mtu) ∧
        (v.gateway = none → p.ipv4.gateway = 0) ∧ (v.dnsPrimary = none → p.ipv4.dnsPrimary = 0) ∧
        (v.dnsSecondary = none → p.ipv4.dnsSecondary = 0) := by
  have hflag := hm.ipv4
  rw [hv] at hflag
  have hmbim : (mbimIpConfig ⟨0, some m⟩ p).2.ipv4 =
      mbimIpv4 (informationBuffer m) (v.mtu.getD 1500) p.ipv4 := by
    rw [mbimIpConfig_eq hm]
    show (if _ then _ else _) = _
    rw [if_pos hflag.1, mtuAfterIpv4_eq hm, hv, Option.bind_some]
  rw [hmbim, mbimIpv4_eq hflag.2, qmiGetIPAddress_ipv4 hq hv, Ipv4.mk.injEq,
    bswap32_netmask_iff v.one_le v.le_32, mtu_agree_iff, getD_agree_iff, getD_agree_iff,
    getD_agree_iff]
  constructor
  · rintro ⟨-, hgateway, hbits, hdns1, hdns2, hmtu⟩
    exact ⟨hbits, hmtu, hgateway, hdns1, hdns2⟩
  · rintro ⟨hbits, hmtu, hgateway, hdns1, hdns2⟩
    exact ⟨rfl, hgateway, hbits, hdns1, hdns2, hmtu⟩

/-- What the MBIM back-end stores as the MTU of IPv6. -/
theorem mbimIpConfig_ipv6 (hm : MbimEncodes m c) {v : NetIpv6} (hv : c.ipv6 = some v)
    (p : Profile) : (mbimIpConfig ⟨0, some m⟩ p).2.ipv6.address = v.address ∧
      (mbimIpConfig ⟨0, some m⟩ p).2.ipv6.prefixLengthIPAddr = v.prefixLength ∧
      (mbimIpConfig ⟨0, some m⟩ p).2.ipv6.mtu =
        bswap32 (v.mtu.getD ((c.ipv4.bind NetIpv4.mtu).getD 1500)) := by
  have hflag := hm.ipv6
  rw [hv] at hflag
  have hmbim : (mbimIpConfig ⟨0, some m⟩ p).2.ipv6 = mbimIpv6 (informationBuffer m)
      (v.mtu.getD ((c.ipv4.bind NetIpv4.mtu).getD 1500)) p.ipv6 := by
    rw [mbimIpConfig_eq hm]
    show (if _ then _ else _) = _
    rw [if_pos hflag.1, mtuAfterIpv6_eq hm hv]
  have hbits : (mbimIpv6Info (informationBuffer m)).prefixOf (informationBuffer m) =
      v.prefixLength := by
    rw [MbimIpInfo.prefixOf, hflag.2.prefixLength]
    simp
  rw [hmbim]
  exact ⟨hflag.2.address, hbits, rfl⟩

theorem ipv6Mtu_agree_iff (v : NetIpv6) (ipv4 : Option NetIpv4) :
    bswap32 (v.mtu.getD ((ipv4.bind NetIpv4.mtu).getD 1500)) = v.mtu.getD 0 ↔
      (∃ mtu ∈ v.mtu, Palindrome mtu) ∨ v.mtu = none ∧ ∃ w ∈ ipv4, w.mtu = some 0 := by
  cases hmtu : v.mtu with
  | some n => simpa [Palindrome] using bswap32_eq_self_iff n
  | none =>
      rw [Option.getD_none, Option.getD_none, bswap32_eq_zero_iff]
      cases ipv4 with
      | none => simp
      | some w => cases hw : w.mtu <;> simp [hw]

/-- **Both back-ends store the same exactly when what is turned over is a palindrome, and what is
not there was zero before.** -/
theorem backends_agree_iff (hm : MbimEncodes m c) (hq : QmiEncodes r4 r6 c) (p : Profile) :
    BackendsAgree c (mbimIpConfig ⟨0, some m⟩ p).2 (qmiGetIPAddress r4 r6 p) ↔ Symmetric c p := by
  constructor
  · intro h
    have h4 : ∀ v ∈ c.ipv4, _ := fun v hv =>
      (ipv4_agree_iff hm hq hv p).1 (h.ipv4 (Option.ne_none_iff_exists'.2 ⟨v, hv⟩))
    refine ⟨fun v hv => (h4 v hv).1, fun v hv => (h4 v hv).2.1, fun v hv => (h4 v hv).2.2.1,
      fun v hv => (h4 v hv).2.2.2.1, fun v hv => (h4 v hv).2.2.2.2, fun v hv => ?_⟩
    have hmtu := (h.ipv6 (Option.ne_none_iff_exists'.2 ⟨v, hv⟩)).2.2
    rw [(mbimIpConfig_ipv6 hm hv p).2.2, (qmiGetIPAddress_ipv6 hq hv p).2.2] at hmtu
    exact (ipv6Mtu_agree_iff v c.ipv4).1 hmtu
  · intro h
    have h6 : ∀ v ∈ c.ipv6, (mbimIpConfig ⟨0, some m⟩ p).2.ipv6.mtu = v.mtu.getD 0 := by
      intro v hv
      rw [(mbimIpConfig_ipv6 hm hv p).2.2]
      exact (ipv6Mtu_agree_iff v c.ipv4).2 (h.ipv6Mtu v hv)
    refine ⟨fun hne => ?_, fun hne => ?_, fun v4 hv4 v6 hv6 hnone mtu hmtu hzero => ?_⟩
    · obtain ⟨v, hv⟩ := Option.ne_none_iff_exists'.1 hne
      exact (ipv4_agree_iff hm hq hv p).2 ⟨h.prefixLength v hv, h.mtu v hv, h.gateway v hv,
        h.dnsPrimary v hv, h.dnsSecondary v hv⟩
    · obtain ⟨v, hv⟩ := Option.ne_none_iff_exists'.1 hne
      obtain ⟨haddress, hbits, -⟩ := mbimIpConfig_ipv6 hm hv p
      obtain ⟨haddress', hbits', hmtu'⟩ := qmiGetIPAddress_ipv6 hq hv p
      exact ⟨haddress.trans haddress'.symm, hbits.trans hbits'.symm,
        (h6 v hv).trans hmtu'.symm⟩
    · -- without an MTU of its own IPv6 has 0, and that is the one of IPv4
      obtain ⟨n, hn, -⟩ | ⟨-, w, hw, hwmtu⟩ := h.ipv6Mtu v6 hv6
      · exact absurd (hnone.symm.trans hn) (by simp)
      · obtain rfl : v4 = w := Option.some.inj (hv4.symm.trans hw)
        exact absurd (Option.some.inj (hwmtu.symm.trans hmtu)).symm hzero

end

/-! ### A network -/

/-- 10.0.0.2 with a gateway and two DNS servers, and 2001:db8::2/64. -/
def sampleNet (prefixLength : ℕ) (h : 1 ≤ prefixLength ∧ prefixLength ≤ 32)
    (mtu4 mtu6 : Option UInt32) : NetConfig :=
  ⟨some ⟨0x0A000002, prefixLength, h.1, h.2, some 0x0A000001, some (0x08080808, some 0x08080404),
      mtu4⟩,
    some ⟨[0x20, 0x01, 0x0D, 0xB8, 0, 0, 0, 0, 0, 0, 0, 0, 0, 0, 0, 2], rfl, 64, mtu6⟩⟩

/-- `MBIM_COMMAND_DONE` with that network. -/
def sampleMbim (prefixLength : UInt32) (mtu4 mtu6 : Option UInt32) : List UInt8 :=
  le32 0x80000003 ++ List.replicate 40 0 ++ le32 100 ++
    [0, if mtu4.isSome then 0xF else 0x7, if mtu6.isSome then 0x9 else 0x1, 1, 60, 1, 68, 88, 0, 2,
      92, 0, 0, mtu4.getD 0, mtu6.getD 0].flatMap le32 ++
    le32 prefixLength ++ be32 0x0A000002 ++
    le32 64 ++ [0x20, 0x01, 0x0D, 0xB8, 0, 0, 0, 0, 0, 0, 0, 0, 0, 0, 0, 2] ++
    be32 0x0A000001 ++ be32 0x08080808 ++ be32 0x08080404

/-- The TLV of a result that is no error. -/
def resultOk : Field := ⟨0x02, [0, 0, 0, 0]⟩

/-- `QMIWDS_GET_RUNTIME_SETTINGS_RESP` with these TLVs behind the result. -/
def runtimeSettingsResp (fs : List Field) : List UInt8 :=
  [0x01, UInt8.ofNat (12 + (encodeAll (resultOk :: fs)).length), 0, 0x80, 0x01, 1, 0x02, 1, 0, 0x2D,
    0] ++ le16 (encodeAll (resultOk :: fs)).length ++ encodeAll (resultOk :: fs)

theorem runtimeSettingsResp_response {fs : List Field}
    (hsize : (encodeAll (resultOk :: fs)).length < 65536) :
    QmiResponse (runtimeSettingsResp fs) (resultOk :: fs) where
  tlvs := List.drop_left' rfl
  length := by
    have hdrop : (runtimeSettingsResp fs).drop 11 =
        le16 (encodeAll (resultOk :: fs)).length ++ encodeAll (resultOk :: fs) := rfl
    have hlength := le16At_drop (runtimeSettingsResp fs) 11 0
    rw [hdrop, le16At_le16, Nat.mod_eq_of_lt hsize] at hlength
    exact hlength.symm
  size := hsize
  result := rfl
  error := rfl

/-- The TLV of an MTU. -/
def mtuField (mtu : Option UInt32) : List Field := (mtu.map fun n => ⟨0x29, le32 n⟩).toList

def sampleFields4 (prefixLength : ℕ) (mtu4 : Option UInt32) : List Field :=
  [⟨0x1E, le32 0x0A000002⟩, ⟨0x21, le32 (netmask prefixLength)⟩, ⟨0x20, le32 0x0A000001⟩,
    ⟨0x15, le32 0x08080808⟩, ⟨0x16, le32 0x08080404⟩] ++ mtuField mtu4

def sampleFields6 (mtu6 : Option UInt32) : List Field :=
  ⟨0x25, [0x20, 0x01, 0x0D, 0xB8, 0, 0, 0, 0, 0, 0, 0, 0, 0, 0, 0, 2, 64]⟩ :: mtuField mtu6

/-- The responses of a QMI modem in that network. -/
theorem sample_qmiEncodes (prefixLength : ℕ) (h : 1 ≤ prefixLength ∧ prefixLength ≤ 32)
    (mtu4 mtu6 : Option UInt32) :
    QmiEncodes (some (1, runtimeSettingsResp (sampleFields4 prefixLength mtu4)))
      (some (2, runtimeSettingsResp (sampleFields6 mtu6)))
      (sampleNet prefixLength h mtu4 mtu6) where
  ipv4 := by
    refine .some ⟨show (1 : UInt32) ≠ 0 by decide, _, runtimeSettingsResp_response ?_,
      ⟨rfl, rfl, rfl, rfl, rfl, by cases mtu4 <;> rfl⟩⟩
    cases mtu4 <;> simp [sampleFields4, mtuField, Field.size, headerSize, resultOk]
  ipv6 := by
    refine .some ⟨show (2 : UInt32) ≠ 0 by decide, _, runtimeSettingsResp_response ?_,
      ⟨rfl, by cases mtu6 <;> rfl, ?_⟩⟩
    · cases mtu6 <;> simp [sampleFields6, mtuField, Field.size, headerSize, resultOk]
    · cases mtu6 <;> simp [ipv4Types, sampleFields6, mtuField, resultOk, lookup]

/-- The answer of an MBIM modem there. -/
theorem sample_mbimEncodes_host : MbimEncodes
    (sampleMbim 32 (some 0x01000001) (some 0x01000001))
    (sampleNet 32 (by decide) (some 0x01000001) (some 0x01000001)) where
  messageType := by decide
  status := by decide
  length := by decide
  ipv4 := ⟨by decide, by decide, by decide, by decide, by decide, by decide, by decide⟩
  ipv6 := ⟨by decide, by decide, by decide, by decide⟩

/-- A host address and MTUs that are palindromes. -/
theorem backends_agree_host :
    BackendsAgree (sampleNet 32 (by decide) (some 0x01000001) (some 0x01000001))
      (mbimIpConfig ⟨0, some (sampleMbim 32 (some 0x01000001) (some 0x01000001))⟩
        (.default true true)).2
      (qmiGetIPAddress (some (1, runtimeSettingsResp (sampleFields4 32 (some 0x01000001))))
        (some (2, runtimeSettingsResp (sampleFields6 (some 0x01000001)))) (.default true true)) := by
  refine (backends_agree_iff sample_mbimEncodes_host
    (sample_qmiEncodes 32 (by decide) (some 0x01000001) (some 0x01000001)) _).2 ?_
  refine ⟨?_, ?_, ?_, ?_, ?_, ?_⟩ <;> rintro v ⟨rfl⟩
  · rfl
  · exact ⟨_, rfl, rfl⟩
  · intro hnone
    exact absurd hnone (by decide)
  · intro hnone
    exact absurd hnone (by decide)
  · intro hnone
    exact absurd hnone (by decide)
  · exact .inl ⟨_, rfl, rfl⟩

theorem sample_mbimEncodes_lan : MbimEncodes (sampleMbim 24 (some 1500) none)
    (sampleNet 24 (by decide) (some 1500) none) where
  messageType := by decide
  status := by decide
  length := by decide
  ipv4 := ⟨by decide, by decide, by decide, by decide, by decide, by decide, by decide⟩
  ipv6 := ⟨by decide, by decide, by decide, by decide⟩

/-- A prefix of 24 bits and an MTU of 1500: the MBIM back-end stores another subnet mask and another
MTU, and gives that MTU to IPv6 too. -/
theorem backends_disagree : ¬ ∀ (m : List UInt8) (r4 r6 : Option (UInt32 × List UInt8))
    (c : NetConfig) (p : Profile), MbimEncodes m c → QmiEncodes r4 r6 c →
      BackendsAgree c (mbimIpConfig ⟨0, some m⟩ p).2 (qmiGetIPAddress r4 r6 p) := by
  intro hall
  have hqmi := sample_qmiEncodes 24 (by decide) (some 1500) none
  have hagree := hall _ _ _ _ (.default true true) sample_mbimEncodes_lan hqmi
  have hbits := ((ipv4_agree_iff sample_mbimEncodes_lan hqmi rfl _).1
    (hagree.ipv4 (by simp [sampleNet]))).1
  exact absurd hbits (by decide)

end QuectelCM

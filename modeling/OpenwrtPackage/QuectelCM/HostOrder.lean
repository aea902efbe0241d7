/-
**The same bytes on either host.**

Three programs of the connection manager speak protocols whose fields are little-endian: the request
for the runtime settings of a call, the handling of QRTR packets, and the MBIM reader and sender.
Each converts its fields, and each misses one place.

* `QuectelCM.Operation` — what is done;
* `QuectelCM.SameOnBothHosts` — what it sends and raises, and the state it leaves, from which later
  bytes are made, do not depend on the host;
* `QuectelCM.Converted` — no field is looked at that misses its conversion, or it does not matter;
* `QuectelCM.sameOnBothHosts_iff` — **the operations that are the same on both hosts**;
* `QuectelCM.not_sameOnBothHosts` — an operation of each kind that is not.
-/
import OpenwrtPackage.QrtrProxy.HostOrder
import OpenwrtPackage.QuectelCM.MbimReader
import OpenwrtPackage.QuectelCM.RuntimeSetting

set_option relaxedAutoImplicit false
set_option autoImplicit false

namespace QuectelCM

open Bytes Memory Host QrtrProxy Qmi

/-- What is done on a host. -/
inductive Operation where
  /-- `ComposeQMUXMsg` with `WdsGetRuntimeSettingReq` -/
  | runtimeSetting (qmiType : UInt8) (transactionId : ℕ) (stack : ℕ → UInt8)
  /-- `recv_qrtr_from_dev` -/
  | qrtrPacket (p : QrtrProxy.Proxy) (hdr : ℕ → UInt8)
  /-- `mbim_recv_command` -/
  | mbimRecv (r : MbimReader) (pResponse : Option (ℕ → UInt8))
  /-- `mbim_send_command` -/
  | mbimSend (s : MbimSender) (pRequest : Option (ℕ → UInt8))

/-- What is sent and raised, and the state that is left, are the same on both hosts. -/
def SameOnBothHosts : Operation → Prop
  | .runtimeSetting qmiType transactionId stack =>
      runtimeSettingRequest .little qmiType transactionId stack =
        runtimeSettingRequest .big qmiType transactionId stack
  | .qrtrPacket p hdr => Agree recvQrtrFromDevOn p hdr
  | .mbimRecv r pResponse =>
      mbimRecvCommandOn .little r pResponse = mbimRecvCommandOn .big r pResponse
  | .mbimSend s pRequest =>
      mbimSendCommandOn .little s pRequest = mbimSendCommandOn .big s pRequest

/-- No field that misses its conversion is looked at, or it says the same without one. -/
def Converted : Operation → Prop
  | .runtimeSetting .. => False
  | .qrtrPacket p hdr => SameOnBoth p hdr
  | .mbimRecv r pResponse => ∀ msg ∈ pResponse, ReportsActivation r msg → SessionSame r msg
  | .mbimSend s pRequest =>
      ∀ req ∈ pRequest, Sends s → field32 req transactionIdAt ≠ wrapTransactionId ∧
        (field32 req transactionIdAt = 1 → s.transactionId = 2)

/-- **The operations that are the same on both hosts.** -/
theorem sameOnBothHosts_iff (op : Operation) : SameOnBothHosts op ↔ Converted op := by
  cases op with
  | runtimeSetting qmiType transactionId stack =>
      exact iff_of_false (runtimeSettingRequest_ne qmiType transactionId stack) id
  | qrtrPacket p hdr => exact agree_packet_iff p hdr
  | mbimRecv r pResponse => exact recv_agree_iff r pResponse
  | mbimSend s pRequest => exact send_agree_iff s pRequest

/-! ### Operations that differ -/

/-- Bytes in memory, with zeros behind them. -/
def memoryOf (bytes : List UInt8) : ℕ → UInt8 := fun i => bytes.getD i 0

/-- A new server of the service 3 on the port 20 of the modem. -/
def newServerPacket : ℕ → UInt8 :=
  memoryOf (le32 1 ++ le32 4 ++ le32 3 ++ le32 0xfffffffe ++ le32 0 ++ le32 20 ++ le32 1 ++
    le32 0xfffffffe ++ le32 4 ++ le32 3 ++ le32 1 ++ le32 3 ++ le32 20)

/-- A connect indication that the session 1 is deactivated. -/
def connectIndication : ℕ → UInt8 :=
  memoryOf (le32 0x80000007 ++ le32 80 ++ le32 0 ++ le32 1 ++ le32 0 ++ uuidBasicConnect ++
    le32 12 ++ le32 36 ++ le32 1 ++ le32 3)

/-- The request behind the last id that is left to the program. -/
def lastRequest : ℕ → UInt8 := memoryOf (le32 2 ++ le32 12 ++ le32 0x1000000)

/-- One client, without a client id, and no server. -/
def oneClient : QrtrProxy.Proxy := ⟨[⟨7, []⟩], [], ⟨fun _ => 0, fun _ => 0⟩⟩

/-- An operation of each kind that is not the same: the mask of the runtime settings; a server that
a big-endian host does not learn of; an indication that it does not report; and a transaction id
that it does not wrap. -/
theorem not_sameOnBothHosts :
    ¬ SameOnBothHosts (.runtimeSetting 1 1 fun _ => 0) ∧
      ¬ SameOnBothHosts (.qrtrPacket oneClient newServerPacket) ∧
      ¬ SameOnBothHosts (.mbimRecv ⟨none, 0, 0, 0, 1, 1⟩ (some connectIndication)) ∧
      ¬ SameOnBothHosts (.mbimSend ⟨3, 1, 0x1000001⟩ (some lastRequest)) := by
  refine ⟨runtimeSettingRequest_ne 1 1 _, fun h => ?_, fun h => ?_, fun h => ?_⟩
  · have hsame := (agree_packet_iff _ _).1 h
    exact hsame.1 (by decide +kernel) (by decide +kernel)
  · have hsession := (recv_agree_iff _ _).1 h connectIndication rfl
    have hreports : ReportsActivation ⟨none, 0, 0, 0, 1, 1⟩ connectIndication := by
      refine ⟨fun _ hmem => absurd hmem (by simp), ?_⟩
      decide +kernel
    exact absurd ((hsession hreports).1 (by decide +kernel)) (by decide +kernel)
  · have hwrap := (send_agree_iff _ _).1 h lastRequest rfl ⟨by decide, by decide⟩
    exact hwrap.1 (by decide +kernel)

/-- The client that asks for the new server is turned away on a big-endian host. -/
example : (recvQmiFromClient (recvQrtrFromDevOn .little oneClient newServerPacket).1
      (getClientIdReq 5 3) 7).2 ≠
    (recvQmiFromClient (recvQrtrFromDevOn .big oneClient newServerPacket).1
      (getClientIdReq 5 3) 7).2 := by
  decide +kernel

end QuectelCM

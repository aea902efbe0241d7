/-
**The QMI proxy: its lists and its message handlers.**

`quectel-qmi-proxy.c` shares one modem channel (`cdc-wdm`) between the clients of a local socket.
This module is a translation of its handlers.  A handler takes the lists of the proxy and returns
the new lists together with what it writes and closes, in order.

What the handlers leave to the operating system is assumed to succeed: memory is there, and a
descriptor that is written takes the whole message.  The host is little-endian.

* `QmiProxy.Proxy` — `qmi_proxy_connection`, `qmi_proxy_ctl_msg` and the flags;
* `QmiProxy.Action` — a write or a close;
* `QmiProxy.acceptQmiConnection`, `QmiProxy.cleanupQmiConnection` — a client comes and goes;
* `QmiProxy.recvQmiFromClient`, `QmiProxy.recvQmiFromDev` — a message from either side.

A message that comes from a client carries two marks that no handler looks at: the connection it
came from and its number among all messages from clients.
-/
import Mathlib.Data.Int.Notation
import OpenwrtPackage.Lib.Keyed
import OpenwrtPackage.Qmi.Message

set_option relaxedAutoImplicit false
set_option autoImplicit false

namespace QmiProxy

open Qmi

/-! ### The data -/

/-- A message from a client: the buffer it stands in, and the two marks. -/
structure Msg where
  bytes : List UInt8
  sender : ℕ
  serial : ℕ
  deriving DecidableEq

/-- `QMI_PROXY_MSG`: a control request that waits for its answer, or for its turn. -/
structure QmiProxyMsg where
  clientFd : ℤ
  qmi : Msg
  deriving DecidableEq

/-- `QMI_PROXY_CLINET`: a client id that the modem granted. -/
structure QmiProxyClient where
  qmiType : UInt8
  clientId : UInt8
  deriving DecidableEq

/-- `QMI_PROXY_CONNECTION`: a connected client with the client ids it owns. -/
structure QmiProxyConnection where
  clientFd : ℤ
  clientQnode : List QmiProxyClient
  deriving DecidableEq

/-- The global state of the proxy. -/
structure Proxy where
  qmiProxyServerFd : ℤ
  qmiProxyConnection : List QmiProxyConnection
  qmiProxyCtlMsg : List QmiProxyMsg
  modemResetFlag : Bool
  qmiSyncDone : Bool
  deriving DecidableEq

/-- What a handler does to the outside. -/
inductive Action where
  /-- `write(cdc_wdm_fd, …)` -/
  | toDev (m : Msg)
  /-- `write(fd, …)` on the socket of a client -/
  | toClient (fd : ℤ) (bytes : List UInt8)
  /-- `close(fd)` -/
  | close (fd : ℤ)
  deriving DecidableEq

/-- The part of a buffer that a write sends: as many bytes as the length field says. -/
def wire (m : Msg) : Msg := { m with bytes := m.bytes.take (qmiSize m.bytes) }

/-! ### Connections -/

/-- `accept_qmi_connection`, where `accept` has returned `clientfd`. -/
def acceptQmiConnection (p : Proxy) (clientfd : ℤ) : Proxy :=
  { p with qmiProxyConnection := p.qmiProxyConnection ++ [⟨clientfd, []⟩] }

/-- `cleanup_qmi_connection`: the first connection with this descriptor goes, and with it the
first control request with this descriptor; both loops end with `break`. -/
def cleanupQmiConnection (p : Proxy) (clientfd : ℤ) : Proxy × List Action :=
  if p.qmiProxyConnection.any (fun qmiCon => qmiCon.clientFd = clientfd) then
    ({ p with
        qmiProxyConnection := p.qmiProxyConnection.eraseP fun qmiCon => qmiCon.clientFd = clientfd
        qmiProxyCtlMsg := p.qmiProxyCtlMsg.eraseP fun qmiMsg => qmiMsg.clientFd = clientfd },
      [.close clientfd])
  else (p, [])

/-- `get_client_id`: a granted client id is added to the connection. -/
def getClientId (qmiCon : QmiProxyConnection) (pClient : List UInt8) : QmiProxyConnection :=
  if rspQmiResult pClient = 0 ∧ rspQmiError pClient = 0 then
    { qmiCon with
      clientQnode := qmiCon.clientQnode ++ [⟨rspQmiType pClient, rspClientId pClient⟩] }
  else qmiCon

/-- `release_client_id`: the first matching client id is taken from the connection. -/
def releaseClientId (qmiCon : QmiProxyConnection) (pClient : List UInt8) : QmiProxyConnection :=
  if rspQmiResult pClient = 0 ∧ rspQmiError pClient = 0 then
    { qmiCon with
      clientQnode := qmiCon.clientQnode.eraseP fun qmiClient =>
        rspQmiType pClient = qmiClient.qmiType ∧ rspClientId pClient = qmiClient.clientId }
  else qmiCon

/-! ### Writing -/

def sendQmiToCdcWdm (pQMI : Msg) : List Action := [.toDev (wire pQMI)]

def sendQmiToClient (pQMI : List UInt8) (clientFd : ℤ) : List Action :=
  [.toClient clientFd (pQMI.take (qmiSize pQMI))]

/-! ### A message from the device -/

/-- What `recv_qmi_from_dev` does to the connection a control response belongs to. -/
def recordRsp (qmiCon : QmiProxyConnection) (pQMI : List UInt8) : QmiProxyConnection :=
  if qmictlType pQMI = qmictlGetClientIdResp then getClientId qmiCon pQMI
  else if qmictlType pQMI = qmictlReleaseClientIdResp ∨
      qmictlType pQMI = qmictlRevokeClientIdInd then
    releaseClientId qmiCon pQMI
  else qmiCon

/-- The response branch of `recv_qmi_from_dev`: the head of the queue is answered and removed.
Whether the response belongs to that request is not looked at. -/
def answerHead (p : Proxy) (pQMI : List UInt8) : Proxy × List Action :=
  match p.qmiProxyCtlMsg with
  | [] => (p, [])
  | qmiMsg :: rest =>
      ({ p with
          qmiProxyConnection := p.qmiProxyConnection.map fun qmiCon =>
            if qmiCon.clientFd = qmiMsg.clientFd then recordRsp qmiCon pQMI else qmiCon
          qmiProxyCtlMsg := rest
          modemResetFlag := p.modemResetFlag ||
            (decide (qmictlType pQMI = qmictlRevokeClientIdInd) &&
              p.qmiProxyConnection.any fun qmiCon => qmiCon.clientFd = qmiMsg.clientFd) },
        (p.qmiProxyConnection.filter fun qmiCon => qmiCon.clientFd = qmiMsg.clientFd).flatMap
          fun _ => sendQmiToClient pQMI qmiMsg.clientFd)

/-- The end of the control branch of `recv_qmi_from_dev`: the request now at the head of the queue
is written to the device if its client is connected. -/
def sendHead (p : Proxy) : List Action :=
  match p.qmiProxyCtlMsg with
  | [] => []
  | qmiMsg :: _ =>
      (p.qmiProxyConnection.filter fun qmiCon => qmiCon.clientFd = qmiMsg.clientFd).flatMap
        fun _ => sendQmiToCdcWdm qmiMsg.qmi

/-- The test of the service branch of `recv_qmi_from_dev`. -/
def matchesClient (pQMI : List UInt8) (qmiClient : QmiProxyClient) : Bool :=
  decide (qmiHdrQmiType pQMI = qmiClient.qmiType) &&
    (decide (qmiHdrClientId pQMI = 0) || decide (qmiHdrClientId pQMI = qmiClient.clientId))

/-- The service branch of `recv_qmi_from_dev`: a loop over the connections, and in it a loop over
the client ids of each.  Neither loop ends before its list does. -/
def serviceWrites (p : Proxy) (pQMI : List UInt8) : List Action :=
  p.qmiProxyConnection.flatMap fun qmiCon =>
    qmiCon.clientQnode.flatMap fun qmiClient =>
      if matchesClient pQMI qmiClient then sendQmiToClient pQMI qmiCon.clientFd else []

/-- `recv_qmi_from_dev`. -/
def recvQmiFromDev (p : Proxy) (pQMI : List UInt8) : Proxy × List Action :=
  if p.qmiProxyServerFd = -1 then ({ p with qmiSyncDone := true }, [])
  else if qmiHdrQmiType pQMI = qmuxTypeCtl then
    let answered := if ctlFlags pQMI = qmictlCtlFlagRsp then answerHead p pQMI else (p, [])
    (answered.1, answered.2 ++ sendHead answered.1)
  else (p, serviceWrites p pQMI)

/-! ### A message from a client -/

/-- `recv_qmi_from_client`. -/
def recvQmiFromClient (p : Proxy) (pQMI : Msg) (size : ℕ) (clientfd : ℤ) :
    Proxy × List Action :=
  if p.qmiProxyServerFd ≤ 0 then (p, sendQmiToCdcWdm pQMI)
  else if qmiHdrQmiType pQMI.bytes = qmuxTypeCtl then
    -- clients may not reset the modem's client ids
    if qmictlType pQMI.bytes = qmictlSyncReq then (p, [])
    else
      ({ p with
          qmiProxyCtlMsg := p.qmiProxyCtlMsg ++
            [⟨clientfd, { pQMI with bytes := pQMI.bytes.take size }⟩] },
        if p.qmiProxyCtlMsg.isEmpty then sendQmiToCdcWdm pQMI else [])
  else (p, sendQmiToCdcWdm pQMI)

/-! ### Small facts about the handlers -/

@[simp] theorem getClientId_clientFd (c : QmiProxyConnection) (m : List UInt8) :
    (getClientId c m).clientFd = c.clientFd := by
  unfold getClientId
  split <;> rfl

@[simp] theorem releaseClientId_clientFd (c : QmiProxyConnection) (m : List UInt8) :
    (releaseClientId c m).clientFd = c.clientFd := by
  unfold releaseClientId
  split <;> rfl

@[simp] theorem recordRsp_clientFd (c : QmiProxyConnection) (m : List UInt8) :
    (recordRsp c m).clientFd = c.clientFd := by
  unfold recordRsp
  split
  · exact getClientId_clientFd c m
  · split
    · exact releaseClientId_clientFd c m
    · rfl

@[simp] theorem wire_sender (m : Msg) : (wire m).sender = m.sender := rfl

@[simp] theorem wire_serial (m : Msg) : (wire m).serial = m.serial := rfl

/-- A message that has a whole header is cut once: sending what was sent changes nothing. -/
theorem wire_wire {m : Msg} (h : qcqmiHdrSize ≤ qmiSize m.bytes) : wire (wire m) = wire m := by
  simp only [wire, qmiSize_take h, List.take_take, Nat.min_self]

theorem qmiHdrQmiType_wire {m : Msg} (h : qcqmiHdrSize ≤ qmiSize m.bytes) :
    qmiHdrQmiType (wire m).bytes = qmiHdrQmiType m.bytes :=
  qmiHdrQmiType_take h

/-- The descriptors of the connections. -/
def Proxy.fds (p : Proxy) : List ℤ := p.qmiProxyConnection.map (·.clientFd)

/-- The connection that a control response is recorded in keeps its descriptor. -/
theorem answerHead_fds (p : Proxy) (m : List UInt8) : (answerHead p m).1.fds = p.fds := by
  unfold answerHead
  split
  · rfl
  · simp only [Proxy.fds, List.map_map]
    refine List.map_congr_left fun c _ => ?_
    simp only [Function.comp_apply]
    split
    · exact recordRsp_clientFd c m
    · rfl

theorem answerHead_ctlMsg (p : Proxy) (m : List UInt8) :
    (answerHead p m).1.qmiProxyCtlMsg = p.qmiProxyCtlMsg.tail := by
  unfold answerHead
  split <;> rename_i h <;> simp [h]

theorem answerHead_serverFd (p : Proxy) (m : List UInt8) :
    (answerHead p m).1.qmiProxyServerFd = p.qmiProxyServerFd := by
  unfold answerHead
  split <;> rfl

/-- No two connections share a descriptor, so the loop over the connections of a descriptor that
is connected runs its body once. -/
theorem flatMap_filter_fds {p : Proxy} (hn : p.fds.Nodup) (fd : ℤ) (acts : List Action) :
    ((p.qmiProxyConnection.filter fun qmiCon => qmiCon.clientFd = fd).flatMap fun _ => acts) =
      if fd ∈ p.fds then acts else [] := by
  split
  · rename_i h
    obtain ⟨c, hc, rfl⟩ := List.mem_map.1 h
    rw [Keyed.filter_eq_singleton hn hc]
    simp
  · rename_i h
    rw [Keyed.filter_eq_nil h]
    rfl

theorem recvQmiFromDev_fds (p : Proxy) (m : List UInt8) : (recvQmiFromDev p m).1.fds = p.fds := by
  unfold recvQmiFromDev
  split
  · rfl
  · split
    · split
      · exact answerHead_fds p m
      · rfl
    · rfl

theorem recvQmiFromDev_serverFd (p : Proxy) (m : List UInt8) :
    (recvQmiFromDev p m).1.qmiProxyServerFd = p.qmiProxyServerFd := by
  unfold recvQmiFromDev
  split
  · rfl
  · split
    · split
      · exact answerHead_serverFd p m
      · rfl
    · rfl

end QmiProxy

/-
**The QRTR proxy: its tables and its message handlers.**

`quectel-qrtr-proxy.c` lets QMI clients of a local socket talk to a modem that is reached by QRTR
packets.  A client that asks for a client id gets one, and with it a port of its own; the proxy
keeps which ids and ports are in use in two arrays of bytes.

This module is a translation of the handlers.  A handler takes the tables and returns the new tables
and what it writes and closes, in order.  Memory is there, and a descriptor that is written takes
the whole message.  The host is little-endian.

* `QrtrProxy.Proxy` — `qrtr_proxy_connection`, `qrtr_server_list`, `client_bitmap` and
  `port_bitmap`;
* `QrtrProxy.allocId`, `QrtrProxy.freeId` — the two allocators, which differ in the size of their
  array;
* `QrtrProxy.allocQrtrClientId`, `QrtrProxy.releaseQrtrClientId`,
  `QrtrProxy.cleanupQrtrConnection` — clients come and go;
* `QrtrProxy.recvQmiFromClient`, `QrtrProxy.recvQrtrFromDev` — a message from either side.
-/
import Mathlib.Data.Int.Notation
import OpenwrtPackage.Lib.FirstFree
import OpenwrtPackage.Lib.Keyed
import OpenwrtPackage.Qmi.Message

set_option relaxedAutoImplicit false
set_option autoImplicit false

namespace QrtrProxy

open Qmi Bytes

/-! ### Constants -/

def qrtrNodeBcast : UInt32 := 0xffffffff

def qrtrPortCtrl : UInt32 := 0xfffffffe

def qrtrTypeData : UInt32 := 1

def qrtrTypeHello : UInt32 := 2

def qrtrTypeNewServer : UInt32 := 4

def qrtrTypeDelServer : UInt32 := 5

def qrtrTypeDelClient : UInt32 := 6

def qrtrTypeResumeTx : UInt32 := 7

def qrtrProtoVer1 : UInt32 := 1

def nodeModem : UInt32 := 3

def nodeMyself : UInt32 := 1

/-- `sizeof(client_bitmap)`. -/
def clientBitmapSize : ℕ := 0xf0

/-- `sizeof(port_bitmap)`. -/
def portBitmapSize : ℕ := 0xff0

/-! ### The data -/

/-- `QRTR_PROXY_CLINET`. -/
structure QrtrProxyClient where
  qmiType : UInt8
  clientId : UInt8
  nodeId : UInt32
  portId : UInt32
  deriving DecidableEq

/-- `QRTR_PROXY_CONNECTION`. -/
structure QrtrProxyConnection where
  clientFd : ℤ
  clientQnode : List QrtrProxyClient
  deriving DecidableEq

/-- `QRTR_SERVICE`; `version` and `instance` are not read by anyone. -/
structure QrtrService where
  service : UInt32
  node : UInt32
  port : UInt32
  srcNodeId : UInt32
  srcPortId : UInt32
  deriving DecidableEq

/-- `struct qrtr_hdr_v1`. -/
structure QrtrHdr where
  version : UInt32
  type : UInt32
  srcNodeId : UInt32
  srcPortId : UInt32
  confirmRx : UInt32
  size : UInt32
  dstNodeId : UInt32
  dstPortId : UInt32
  deriving DecidableEq

/-- A QRTR packet: its header and the bytes behind it. -/
structure Packet where
  hdr : QrtrHdr
  payload : List UInt8
  deriving DecidableEq

/-- The node and the port of a `struct sockaddr_qrtr`. -/
structure SockaddrQrtr where
  sqNode : UInt32
  sqPort : UInt32

/-- The arrays `client_bitmap` and `port_bitmap`. -/
structure Bitmaps where
  client : ℕ → UInt8
  port : ℕ → UInt8

/-- The global state of the proxy. -/
structure Proxy where
  qrtrProxyConnection : List QrtrProxyConnection
  qrtrServerList : List QrtrService
  bitmaps : Bitmaps

/-- What a handler does to the outside. -/
inductive Action where
  /-- `write(cdc_wdm_fd, …)` -/
  | toDev (p : Packet)
  /-- `write(fd, …)` on the socket of a client -/
  | toClient (fd : ℤ) (bytes : List UInt8)
  /-- `close(fd)` -/
  | close (fd : ℤ)
  deriving DecidableEq

/-! ### The allocators -/

/-- `alloc_client_id` and `alloc_port_id`: the first free number of the array is stored in its own
cell, which has one byte.  When there is none the result is 0. -/
def allocId (size : ℕ) (bitmap : ℕ → UInt8) : ℕ × (ℕ → UInt8) :=
  match FirstFree.firstFree size fun id => bitmap id ≠ 0 with
  | some id => (id, Function.update bitmap id (UInt8.ofNat id))
  | none => (0, bitmap)

/-- `free_client_id` and `free_port_id`. -/
def freeId (size : ℕ) (bitmap : ℕ → UInt8) (id : ℕ) : ℕ → UInt8 :=
  if id < size ∧ (bitmap id).toNat = id then Function.update bitmap id 0 else bitmap

def allocClientId (b : Bitmaps) : ℕ × (ℕ → UInt8) := allocId clientBitmapSize b.client

def freeClientId (b : Bitmaps) (id : ℕ) : ℕ → UInt8 := freeId clientBitmapSize b.client id

def allocPortId (b : Bitmaps) : ℕ × (ℕ → UInt8) := allocId portBitmapSize b.port

def freePortId (b : Bitmaps) (id : ℕ) : ℕ → UInt8 := freeId portBitmapSize b.port id

/-! ### Packets to the device -/

/-- `qrtr_node_enqueue`.  The bytes that `send_qrtr_to_dev` writes behind the payload, up to a
multiple of four, are left out. -/
def qrtrNodeEnqueue (data : List UInt8) (type : UInt32) (src dst : SockaddrQrtr)
    (confirmRx : Bool) : List Action :=
  [.toDev
    { hdr :=
        { version := qrtrProtoVer1
          type := type
          srcNodeId := src.sqNode
          srcPortId := src.sqPort
          confirmRx := if confirmRx then 1 else 0
          size := UInt32.ofNat data.length
          dstNodeId := dst.sqNode
          dstPortId := dst.sqPort }
      payload := data }]

/-- The bytes of a `struct qrtr_ctrl_pkt` with `client.node` and `client.port`. -/
def clientCtrlPkt (cmd node port : UInt32) : List UInt8 :=
  le32 cmd ++ le32 node ++ le32 port ++ [0, 0, 0, 0, 0, 0, 0, 0]

/-- `send_ctrl_hello`. -/
def sendCtrlHello (sqNode sqPort : UInt32) : List Action :=
  qrtrNodeEnqueue (clientCtrlPkt qrtrTypeHello 0 0) qrtrTypeHello ⟨nodeMyself, qrtrPortCtrl⟩
    ⟨sqNode, sqPort⟩ false

/-- `find_qrtr_service`. -/
def findQrtrService (servers : List QrtrService) (qmiType : UInt8) : Option QrtrService :=
  servers.find? fun srv => srv.service = qmiType.toUInt32

/-- `ctrl_cmd_del_client`. -/
def ctrlCmdDelClient (servers : List QrtrService) (sqNode sqPort : UInt32) (qmiType : UInt8) :
    List Action :=
  let toNode := match findQrtrService servers qmiType with
    | some srv => srv.srcNodeId
    | none => qrtrNodeBcast
  qrtrNodeEnqueue (clientCtrlPkt qrtrTypeDelClient sqNode sqPort) qrtrTypeData ⟨sqNode, sqPort⟩
    ⟨toNode, qrtrPortCtrl⟩ false

/-! ### Clients and connections -/

/-- `alloc_qrtr_client_id`: the new arrays and the new client.  The result of neither allocator is
looked at. -/
def allocQrtrClientId (b : Bitmaps) (qmiType : UInt8) : Bitmaps × QrtrProxyClient :=
  let clientId := allocClientId b
  let portId := allocPortId b
  (⟨clientId.2, portId.2⟩, ⟨qmiType, UInt8.ofNat clientId.1, 1, UInt32.ofNat portId.1⟩)

/-- `release_qrtr_client_id`: the first client with this type and id goes. -/
def releaseQrtrClientId (servers : List QrtrService) (b : Bitmaps) (clients : List QrtrProxyClient)
    (qmiType clientId : UInt8) : Bitmaps × List QrtrProxyClient × List Action :=
  match clients.find? fun c => qmiType = c.qmiType ∧ clientId = c.clientId with
  | some c =>
      (⟨freeClientId b c.clientId.toNat, freePortId b c.portId.toNat⟩,
        clients.eraseP fun c => qmiType = c.qmiType ∧ clientId = c.clientId,
        ctrlCmdDelClient servers c.nodeId c.portId c.qmiType)
  | none => (b, clients, [])

/-- The loop of `cleanup_qrtr_connection`, which releases the head of the list until the list is
empty.  The head is the first client with its own type and id, so `rest` is what is left. -/
def releaseAll (servers : List QrtrService) (b : Bitmaps) :
    List QrtrProxyClient → Bitmaps × List Action
  | [] => (b, [])
  | c :: rest =>
      let r := releaseQrtrClientId servers b (c :: rest) c.qmiType c.clientId
      let s := releaseAll servers r.1 rest
      (s.1, r.2.2 ++ s.2)

/-- `accept_qrtr_connection`, where `accept` has returned `clientfd`. -/
def acceptQrtrConnection (p : Proxy) (clientfd : ℤ) : Proxy :=
  { p with qrtrProxyConnection := p.qrtrProxyConnection ++ [⟨clientfd, []⟩] }

/-- `cleanup_qrtr_connection`. -/
def cleanupQrtrConnection (p : Proxy) (clientfd : ℤ) : Proxy × List Action :=
  match p.qrtrProxyConnection.find? fun qrtrCon => qrtrCon.clientFd = clientfd with
  | some qrtrCon =>
      let r := releaseAll p.qrtrServerList p.bitmaps qrtrCon.clientQnode
      ({ p with
          qrtrProxyConnection := p.qrtrProxyConnection.eraseP fun con => con.clientFd = clientfd
          bitmaps := r.1 },
        r.2 ++ [.close qrtrCon.clientFd])
  | none => (p, [])

/-! ### A message from a client -/

def sendQmiToClient (pQMI : List UInt8) (fd : ℤ) : List Action :=
  [.toClient fd (pQMI.take (qmiSize pQMI))]

/-- A control response of the proxy: the header, the control message up to its second TLV (16
bytes), and the value of that TLV. -/
def ctlRsp (pQMI : List UInt8) (result error : ℕ) (tlv2Length : ℕ) (rest : List UInt8) :
    List UInt8 :=
  [0x01] ++ le16 (6 + 16 + rest.length - 1) ++ [0x00, qmuxTypeCtl, 0] ++
    [qmictlCtlFlagRsp, ctlTransactionId pQMI] ++ le16 (qmictlType pQMI) ++
    le16 (16 + rest.length - 6) ++ [0x02] ++ le16 4 ++ le16 result ++ le16 error ++ [0x01] ++
    le16 tlv2Length ++ rest

/-- The answer to `QMICTL_GET_CLIENT_ID_REQ`. -/
def getClientIdRsp (pQMI : List UInt8) (clientId : UInt8) : List UInt8 :=
  ctlRsp pQMI (if clientId ≠ 0 then 0 else qmiResultFailure)
    (if clientId ≠ 0 then 0 else qmiErrInternal) 2 [reqQmiType pQMI, clientId]

example : getClientIdRsp (getClientIdReq 5 1) 7 =
    [0x01, 23, 0, 0x00, 0, 0, 0x01, 5, 0x22, 0, 12, 0, 0x02, 4, 0, 0, 0, 0, 0, 0x01, 2, 0, 1, 7] := by
  decide

/-- The answer to `QMICTL_RELEASE_CLIENT_ID_REQ`. -/
def releaseClientIdRsp (pQMI : List UInt8) : List UInt8 :=
  ctlRsp pQMI 0 0 2 [reqQmiType pQMI, reqClientId pQMI]

/-- The answer to `QMICTL_GET_VERSION_REQ`. -/
def getVersionRsp (pQMI : List UInt8) : List UInt8 := ctlRsp pQMI 0 0 1 [0]

/-- The connection on `clientfd` gets the list `clients`. -/
def setClients (p : Proxy) (clientfd : ℤ) (clients : List QrtrProxyClient) :
    List QrtrProxyConnection :=
  Keyed.updateFirst (fun qrtrCon => qrtrCon.clientFd = clientfd)
    (fun qrtrCon => { qrtrCon with clientQnode := clients }) p.qrtrProxyConnection

/-- `recv_qmi_from_client`. -/
def recvQmiFromClient (p : Proxy) (pQMI : List UInt8) (clientfd : ℤ) : Proxy × List Action :=
  match p.qrtrProxyConnection.find? fun qrtrCon => qrtrCon.clientFd = clientfd with
  | none => (p, [])
  | some qrtrCon =>
      if qmiHdrQmiType pQMI = qmuxTypeCtl then
        if qmictlType pQMI = qmictlSyncReq then (p, [])
        else if qmictlType pQMI = qmictlGetClientIdReq then
          match findQrtrService p.qrtrServerList (reqQmiType pQMI) with
          | some _ =>
              let r := allocQrtrClientId p.bitmaps (reqQmiType pQMI)
              ({ p with
                  qrtrProxyConnection := setClients p clientfd (qrtrCon.clientQnode ++ [r.2])
                  bitmaps := r.1 },
                sendQmiToClient (getClientIdRsp pQMI r.2.clientId) clientfd)
          | none => (p, sendQmiToClient (getClientIdRsp pQMI 0) clientfd)
        else if qmictlType pQMI = qmictlReleaseClientIdReq then
          let r := releaseQrtrClientId p.qrtrServerList p.bitmaps qrtrCon.clientQnode
            (reqQmiType pQMI) (reqClientId pQMI)
          ({ p with
              qrtrProxyConnection := setClients p clientfd r.2.1
              bitmaps := r.1 },
            r.2.2 ++ sendQmiToClient (releaseClientIdRsp pQMI) clientfd)
        else if qmictlType pQMI = qmictlGetVersionReq then
          (p, sendQmiToClient (getVersionRsp pQMI) clientfd)
        else (p, [])
      else
        match qrtrCon.clientQnode.find? fun c =>
            qmiHdrQmiType pQMI = c.qmiType ∧ qmiHdrClientId pQMI = c.clientId with
        | none => (p, [])
        | some c =>
            match findQrtrService p.qrtrServerList (qmiHdrQmiType pQMI) with
            | none => (p, [])
            | some srv =>
                if srv.service = 0 then (p, [])
                else
                  (p, qrtrNodeEnqueue
                    ((pQMI.drop qcqmiHdrSize).take (qmiSize pQMI - qcqmiHdrSize)) qrtrTypeData
                    ⟨c.nodeId, c.portId⟩ ⟨srv.node, srv.port⟩ false)

/-! ### A packet from the device -/

/-- `handle_server_change`.  A new server is added to the list; for one that has gone, the function
takes a fresh node out of the list that the node is alone in. -/
def handleServerChange (p : Proxy) (pkt : Packet) : Proxy :=
  if le32At pkt.payload 12 ≠ nodeModem then p
  else if pkt.hdr.type = qrtrTypeNewServer then
    { p with
      qrtrServerList := p.qrtrServerList ++
        [{ service := le32At pkt.payload 4
           node := le32At pkt.payload 12
           port := le32At pkt.payload 16
           srcNodeId := pkt.hdr.srcNodeId
           srcPortId := pkt.hdr.srcPortId }] }
  else p

/-- The client that a data packet is for. -/
def matchesPacket (hdr : QrtrHdr) (c : QrtrProxyClient) : Bool :=
  decide (c.nodeId = hdr.dstNodeId) && decide (c.portId = hdr.dstPortId)

/-- The QMI message that a data packet becomes for the client `c`. -/
def wrapQmi (pkt : Packet) (c : QrtrProxyClient) : List UInt8 :=
  [0x01] ++ le16 (pkt.hdr.size.toNat + qcqmiHdrSize - 1) ++ [0x00, c.qmiType, c.clientId] ++
    pkt.payload.take pkt.hdr.size.toNat

/-- The data branch of `recv_qrtr_from_dev`: a loop over the connections, and in it a loop over the
clients of each. -/
def dataWrites (p : Proxy) (pkt : Packet) : List Action :=
  p.qrtrProxyConnection.flatMap fun qrtrCon =>
    qrtrCon.clientQnode.flatMap fun c =>
      if matchesPacket pkt.hdr c then sendQmiToClient (wrapQmi pkt c) qrtrCon.clientFd else []

/-- `recv_qrtr_from_dev`. -/
def recvQrtrFromDev (p : Proxy) (pkt : Packet) : Proxy × List Action :=
  if pkt.hdr.type = qrtrTypeHello then (p, sendCtrlHello pkt.hdr.srcNodeId pkt.hdr.srcPortId)
  else if pkt.hdr.type = qrtrTypeNewServer ∨ pkt.hdr.type = qrtrTypeDelServer then
    (handleServerChange p pkt, [])
  else if pkt.hdr.type = qrtrTypeData then
    let confirm :=
      if pkt.hdr.confirmRx ≠ 0 then
        qrtrNodeEnqueue (clientCtrlPkt qrtrTypeResumeTx pkt.hdr.dstNodeId pkt.hdr.dstPortId)
          qrtrTypeResumeTx ⟨pkt.hdr.dstNodeId, pkt.hdr.dstPortId⟩
          ⟨pkt.hdr.srcNodeId, pkt.hdr.srcPortId⟩ false
      else []
    (p, dataWrites p pkt ++ confirm)
  else (p, [])

/-! ### Small facts about the handlers -/

/-- The head of a list of clients is the first with its own type and id. -/
theorem releaseQrtrClientId_head (servers : List QrtrService) (b : Bitmaps) (c : QrtrProxyClient)
    (rest : List QrtrProxyClient) :
    releaseQrtrClientId servers b (c :: rest) c.qmiType c.clientId =
      (⟨freeClientId b c.clientId.toNat, freePortId b c.portId.toNat⟩, rest,
        ctrlCmdDelClient servers c.nodeId c.portId c.qmiType) := by
  simp [releaseQrtrClientId]

/-- The descriptors of the connections. -/
def Proxy.fds (p : Proxy) : List ℤ := p.qrtrProxyConnection.map (·.clientFd)

/-- All clients, of all connections. -/
def Proxy.live (p : Proxy) : List QrtrProxyClient :=
  p.qrtrProxyConnection.flatMap (·.clientQnode)

end QrtrProxy

/-
**The tunnel between the clients and the services of the modem.**

A client of the proxy speaks QMI, and a service of the modem QMI without its header in packets of
QRTR.  The proxy takes the header off and puts it on again: what the header says is in the port, and
the port of a client stands for its type and its client id.

Main definitions:

* `QrtrProxy.IsMessageOf`, `QrtrProxy.IsDataPacket`, `QrtrProxy.IsDatagramFor` — the messages of a
  client, the packet that one of them becomes, and the packets for the client;
* `QrtrProxy.Transparent` — messages and packets of each client go through, and those that come back
  go through again;
* `QrtrProxy.Apart` — the clients of a connection have different ports, and different types or
  client ids, and none has the type of the control messages.

Main results:

* `QrtrProxy.served` — what holds of the clients and the connections in every run;
* `QrtrProxy.clientTurn_data`, `QrtrProxy.received_devTurn` — what a message and a packet become;
* `QrtrProxy.transparent_iff` — **the tunnel is transparent exactly while the clients of each
  connection are apart**;
* `QrtrProxy.not_transparent` — a client that keeps asking.
-/
import OpenwrtPackage.QrtrProxy.Datagram
import OpenwrtPackage.QrtrProxy.Services

set_option relaxedAutoImplicit false
set_option autoImplicit false

namespace QrtrProxy

open Qmi Bytes Memory Host MachineInt

/-! ### Messages and packets of a client -/

/-- A message with the type and the id of the client, as long as it says. -/
structure IsMessageOf (c : QrtrProxyClient) (m : List UInt8) : Prop where
  type : qmiHdrQmiType m = c.qmiType
  id : qmiHdrClientId m = c.clientId
  header : qcqmiHdrSize ≤ m.length
  fits : m.length ≤ rxBufSize
  length : m.length = qmiSize m

/-- The header of a data packet from the port of the client to the service. -/
def dataHdr (c : QrtrProxyClient) (srv : QrtrService) (size : ℕ) : QrtrHdr :=
  ⟨qrtrProtoVer1, qrtrTypeData, 1, c.portId, 0, UInt32.ofNat size, srv.node, srv.port⟩

/-- All that is written is one such packet, with the payload `x` padded to a multiple of four. -/
def IsDataPacket (c : QrtrProxyClient) (srv : QrtrService) (x : List UInt8) (ws : List Write) :
    Prop :=
  ∃ padding, padding.length < 4 ∧ 4 ∣ (x ++ padding).length ∧
    ws = [.toDev (Packet.bytes ⟨dataHdr c srv x.length, x ++ padding⟩)]

/-- A data packet for the client with the payload `x`, which the buffer has room for. -/
structure IsDatagramFor (c : QrtrProxyClient) (hdr : QrtrHdr) (x padding : List UInt8) : Prop where
  type : hdr.type = qrtrTypeData
  node : hdr.dstNodeId = 1
  port : hdr.dstPortId = c.portId
  size : hdr.size.toNat = x.length
  fits : (Packet.bytes ⟨hdr, x ++ padding⟩).length ≤ rxBufSize

/-- The message goes to the service without its header, whatever is left over in the buffer. -/
def Wraps (w : SizeT) (p : Proxy) (clientfd : ℤ) (c : QrtrProxyClient) (m : List UInt8) : Prop :=
  ∀ srv, findQrtrService p.qrtrServerList c.qmiType = some srv →
    ∀ stale fresh, IsDataPacket c srv (m.drop qcqmiHdrSize)
      (clientTurn w p (store stale 0 m) m.length clientfd fresh)

/-- The packet comes to the connection as one message of the client, and goes back as it came. -/
def Unwraps (w : SizeT) (p : Proxy) (clientfd : ℤ) (c : QrtrProxyClient) (hdr : QrtrHdr)
    (x padding : List UInt8) : Prop :=
  let d := Packet.bytes ⟨hdr, x ++ padding⟩
  ∀ stale, DatagramPasses w (store stale 0 d) d.length →
    ∃ m, received clientfd (devTurn w p (store stale 0 d) d.length) = [m] ∧
      IsMessageOf c m ∧ m.drop qcqmiHdrSize = x ∧ Wraps w p clientfd c m

/-- Every message and every packet of every client goes through. -/
def Transparent (w : SizeT) (p : Proxy) : Prop :=
  ∀ con ∈ p.qrtrProxyConnection, ∀ c ∈ con.clientQnode,
    (∀ m, IsMessageOf c m → Wraps w p con.clientFd c m) ∧
      ∀ hdr x padding, IsDatagramFor c hdr x padding →
        Unwraps w p con.clientFd c hdr x padding

/-- The clients of a list can be told apart, and their messages are not for the proxy. -/
structure ClientsApart (clients : List QrtrProxyClient) : Prop where
  ports : (clients.map (·.portId)).Nodup
  ids : (clients.map fun c => (c.qmiType, c.clientId)).Nodup
  not_ctl : ∀ c ∈ clients, c.qmiType ≠ qmuxTypeCtl

/-- The clients of each connection are apart. -/
def Apart (p : Proxy) : Prop := ∀ con ∈ p.qrtrProxyConnection, ClientsApart con.clientQnode

/-! ### Clients and connections in a run -/

/-- Each descriptor is one connection's; all clients are on node 1, and their services are known. -/
structure Served (p : Proxy) : Prop where
  fds_nodup : p.fds.Nodup
  node : ∀ c ∈ p.live, c.nodeId = 1
  known : ∀ c ∈ p.live, (findQrtrService p.qrtrServerList c.qmiType).isSome = true

theorem findQrtrService_append {servers : List QrtrService} (more : List QrtrService) {t : UInt8}
    (h : (findQrtrService servers t).isSome = true) :
    (findQrtrService (servers ++ more) t).isSome = true := by
  rw [findQrtrService, List.find?_append]
  rw [findQrtrService] at h
  cases hfind : servers.find? fun srv => srv.service = t.toUInt32 with
  | none =>
      rw [hfind] at h
      cases h
  | some srv => rfl

/-- A service that is known stays known. -/
theorem known_step {p p' : Proxy} {e : Event} (h : step p e = some p') {t : UInt8}
    (ht : (findQrtrService p.qrtrServerList t).isSome = true) :
    (findQrtrService p'.qrtrServerList t).isSome = true := by
  by_cases hpacket : ∃ pkt, e = .packet pkt
  · obtain ⟨pkt, rfl⟩ := hpacket
    obtain rfl := Option.some.inj h
    obtain ⟨more, hmore⟩ := recvQrtrFromDev_proxy p pkt
    rw [hmore]
    exact findQrtrService_append more ht
  · rw [step_servers h fun pkt he => hpacket ⟨pkt, he⟩]
    exact ht

/-- A client that is new is on node 1, and its service is known. -/
theorem live_step {p p' : Proxy} {e : Event} (h : step p e = some p') {c : QrtrProxyClient}
    (hc : c ∈ p'.live) :
    c ∈ p.live ∨ c.nodeId = 1 ∧ (findQrtrService p.qrtrServerList c.qmiType).isSome = true := by
  rcases step_cases h with ⟨clientfd, pQMI, -, halloc, -, hlive⟩ | ⟨gone, hlive, -⟩
  · rcases List.mem_cons.1 (hlive.mem_iff.1 hc) with rfl | hold
    · exact .inr ⟨rfl, halloc.2.2⟩
    · exact .inl hold
  · exact .inl (hlive.mem_iff.2 (List.mem_append_right gone hc))

theorem fds_step {p p' : Proxy} {e : Event} (h : step p e = some p') (hp : p.fds.Nodup) :
    p'.fds.Nodup := by
  cases e with
  | accept clientfd =>
      simp only [step] at h
      split at h
      · next hguard =>
          obtain rfl := Option.some.inj h
          have hfds : (acceptQrtrConnection p clientfd).fds = p.fds ++ [clientfd] :=
            List.map_append
          rw [hfds]
          exact List.nodup_append.2 ⟨hp, List.nodup_singleton _, fun a ha b hb hab =>
            hguard.1 (List.mem_singleton.1 hb ▸ hab ▸ ha)⟩
      · cases h
  | request clientfd pQMI =>
      simp only [step] at h
      split at h
      · obtain rfl := Option.some.inj h
        rw [recvQmiFromClient_fds]
        exact hp
      · cases h
  | hangup clientfd =>
      simp only [step] at h
      split at h
      · obtain rfl := Option.some.inj h
        unfold cleanupQrtrConnection
        split
        · exact hp.sublist (List.eraseP_sublist.map _)
        · exact hp
      · cases h
  | packet pkt =>
      obtain rfl := Option.some.inj h
      obtain ⟨more, hmore⟩ := recvQrtrFromDev_proxy p pkt
      rw [hmore]
      exact hp

theorem served_step {p p' : Proxy} {e : Event} (hs : Served p) (h : step p e = some p') :
    Served p' := by
  refine ⟨fds_step h hs.fds_nodup, fun c hc => ?_, fun c hc => ?_⟩
  · rcases live_step h hc with hold | hnew
    · exact hs.node c hold
    · exact hnew.1
  · rcases live_step h hc with hold | hnew
    · exact known_step h (hs.known c hold)
    · exact known_step h hnew.2

theorem served_start (servers : List QrtrService) : Served (start servers) :=
  ⟨List.nodup_nil, fun _ h => absurd h List.not_mem_nil, fun _ h => absurd h List.not_mem_nil⟩

/-- **In every run the connections have different descriptors, and the clients known services.** -/
theorem served (servers : List QrtrService) (evs : List Event) :
    ∀ p ∈ EventRun.states step (start servers) evs, Served p :=
  EventRun.invariant Served (fun _ _ _ hs h => served_step hs h) (served_start servers) evs

section

variable {w : SizeT} {p : Proxy} {con : QrtrProxyConnection} {c : QrtrProxyClient}

theorem Served.find_connection (hs : Served p) (hcon : con ∈ p.qrtrProxyConnection) :
    p.qrtrProxyConnection.find? (fun qrtrCon => qrtrCon.clientFd = con.clientFd) = some con :=
  Keyed.find?_eq_of_mem hs.fds_nodup hcon

theorem Served.node_of_mem (hs : Served p) (hcon : con ∈ p.qrtrProxyConnection)
    (hc : c ∈ con.clientQnode) : c.nodeId = 1 :=
  hs.node c (List.mem_flatMap.2 ⟨con, hcon, hc⟩)

theorem Served.exists_service (hs : Served p) (hcon : con ∈ p.qrtrProxyConnection)
    (hc : c ∈ con.clientQnode) : ∃ srv, findQrtrService p.qrtrServerList c.qmiType = some srv :=
  Option.isSome_iff_exists.1 (hs.known c (List.mem_flatMap.2 ⟨con, hcon, hc⟩))

/-! ### A message goes out -/

/-- The service that is found is not the one of the control messages. -/
theorem service_ne_zero {servers : List QrtrService} {t : UInt8} {srv : QrtrService}
    (hsrv : findQrtrService servers t = some srv) (ht : t ≠ qmuxTypeCtl) : srv.service ≠ 0 := by
  have hservice : srv.service = t.toUInt32 := by simpa using List.find?_some hsrv
  intro hzero
  refine ht (UInt8.toNat_inj.1 ?_)
  have hval := congrArg UInt32.toNat (hservice.symm.trans hzero)
  rwa [UInt8.toNat_toUInt32] at hval

/-- What a message of a client asks of the device: the first client with its type and id sends
it. -/
theorem recvQmiFromClient_data (pQMI : List UInt8) {clientfd : ℤ}
    (hcon : p.qrtrProxyConnection.find? (fun qrtrCon => qrtrCon.clientFd = clientfd) = some con)
    (hctl : qmiHdrQmiType pQMI ≠ qmuxTypeCtl)
    (hc : con.clientQnode.find? (fun c =>
      qmiHdrQmiType pQMI = c.qmiType ∧ qmiHdrClientId pQMI = c.clientId) = some c)
    {srv : QrtrService}
    (hsrv : findQrtrService p.qrtrServerList (qmiHdrQmiType pQMI) = some srv) :
    (recvQmiFromClient p pQMI clientfd).2 =
      qrtrNodeEnqueue ((pQMI.drop qcqmiHdrSize).take (qmiSize pQMI - qcqmiHdrSize)) qrtrTypeData
        ⟨c.nodeId, c.portId⟩ ⟨srv.node, srv.port⟩ false := by
  unfold recvQmiFromClient
  rw [hcon]
  dsimp only
  rw [if_neg hctl, hc]
  dsimp only
  rw [hsrv]
  dsimp only
  rw [if_neg (service_ne_zero hsrv hctl)]

/-- The header of a message does not depend on what is left over behind it. -/
theorem message_append {m : List UInt8} (hheader : qcqmiHdrSize ≤ m.length) (rest : List UInt8) :
    qmiSize (m ++ rest) = qmiSize m ∧ qmiHdrQmiType (m ++ rest) = qmiHdrQmiType m ∧
      qmiHdrClientId (m ++ rest) = qmiHdrClientId m := by
  have hsize := @qmiSize_take (m ++ rest) m.length hheader
  have htype := @qmiHdrQmiType_take (m ++ rest) m.length hheader
  rw [List.take_left] at hsize htype
  exact ⟨hsize.symm, htype.symm, byteAt_append_left (Nat.lt_of_lt_of_le (by decide) hheader)⟩

/-- **What a message of a client becomes**, for the first client with its type and id. -/
theorem clientTurn_data (hs : Served p) (hcon : con ∈ p.qrtrProxyConnection)
    (hmem : c ∈ con.clientQnode) {m : List UInt8} (hm : IsMessageOf c m)
    (hctl : c.qmiType ≠ qmuxTypeCtl) {srv : QrtrService}
    (hsrv : findQrtrService p.qrtrServerList c.qmiType = some srv) (stale fresh : ℕ → UInt8) :
    ∃ c' ∈ con.clientQnode, (c'.qmiType, c'.clientId) = (c.qmiType, c.clientId) ∧
      IsDataPacket c' srv (m.drop qcqmiHdrSize)
        (clientTurn w p (store stale 0 m) m.length con.clientFd fresh) := by
  obtain ⟨rest, hrest⟩ := messageIn_store stale hm.fits
  obtain ⟨hsize, htype, hid⟩ := message_append hm.header rest
  have hpayload : ((m ++ rest).drop qcqmiHdrSize).take (m.length - qcqmiHdrSize) =
      m.drop qcqmiHdrSize := by
    rw [List.drop_append_of_le_length hm.header]
    exact List.take_left' List.length_drop
  obtain ⟨c', hfind⟩ : ∃ c', con.clientQnode.find? (fun c' =>
      qmiHdrQmiType (m ++ rest) = c'.qmiType ∧ qmiHdrClientId (m ++ rest) = c'.clientId) =
        some c' := by
    refine Option.isSome_iff_exists.1 (List.find?_isSome.2 ⟨c, hmem, ?_⟩)
    rw [htype, hid, hm.type, hm.id]
    exact decide_eq_true ⟨rfl, rfl⟩
  have hmem' := List.mem_of_find?_eq_some hfind
  have hmatch := List.find?_some hfind
  obtain ⟨htype', hid'⟩ := of_decide_eq_true hmatch
  rw [htype, hm.type] at htype'
  rw [hid, hm.id] at hid'
  refine ⟨c', hmem', Prod.ext htype'.symm hid'.symm, ?_⟩
  have hwrites := recvQmiFromClient_data (m ++ rest) (hs.find_connection hcon)
    (by rw [htype, hm.type]; exact hctl) hfind (by rw [htype, hm.type]; exact hsrv)
  rw [hsize, ← hm.length, hpayload, hs.node_of_mem hcon hmem'] at hwrites
  -- the packet has the payload, and is written with its padding
  have hlen : (m.drop qcqmiHdrSize).length ≤ rxBufSize := by
    rw [List.length_drop]
    exact Nat.le_trans (Nat.sub_le _ _) hm.fits
  have hval : (UInt32.ofNat (m.drop qcqmiHdrSize).length).toNat =
      (m.drop qcqmiHdrSize).length := by
    rw [UInt32.toNat_ofNat']
    unfold rxBufSize at hlen
    omega
  obtain ⟨padding, hshort, hfour, hbytes⟩ := @sendQrtrToDev_eq w fresh
    (dataHdr c' srv (m.drop qcqmiHdrSize).length) _ hval hlen
  refine ⟨padding, hshort, hfour, ?_⟩
  have hpasses : MessagePasses (store stale 0 m) m.length := by
    rw [MessagePasses, hrest, hsize, hm.length]
  rw [clientTurn, if_pos hpasses, hrest, hwrites, ← hbytes]
  rfl

/-! ### A packet comes in -/

theorem received_append (fd : ℤ) (ws ws' : List Write) :
    received fd (ws ++ ws') = received fd ws ++ received fd ws' :=
  List.filterMap_append

/-- The messages to one connection, of those to the clients of another or the same. -/
theorem received_map_toClient (fd fd' : ℤ) (messages : QrtrProxyClient → List UInt8)
    (clients : List QrtrProxyClient) :
    received fd (clients.map fun c => .toClient fd' (messages c)) =
      if fd' = fd then clients.map messages else [] := by
  induction clients with
  | nil => exact (ite_self []).symm
  | cons c clients ih =>
      rw [List.map_cons, ← List.singleton_append, received_append, ih]
      by_cases hfd : fd' = fd
      · subst hfd
        simp [received]
      · simp [received, hfd]

theorem received_confirmOn (fd : ℤ) (rxBuf : ℕ → UInt8) :
    received fd (confirmOn .little rxBuf) = [] := by
  unfold confirmOn
  split
  · rfl
  · rfl

/-- **What a data packet becomes**: a message to each client of the connection that it is for. -/
theorem received_devTurn (hs : Served p) (hcon : con ∈ p.qrtrProxyConnection) {rxBuf : ℕ → UInt8}
    {nreads : ℕ} (hpasses : DatagramPasses w rxBuf nreads)
    (htype : (hdrIn rxBuf).type = qrtrTypeData) :
    received con.clientFd (devTurn w p rxBuf nreads) =
      (con.clientQnode.filter (matchesPacket (hdrIn rxBuf))).map (messageOn .little rxBuf) := by
  have hfield : field32 rxBuf 4 = qrtrTypeData := htype
  have hwrites : (recvQrtrFromDevOn .little p rxBuf).2 =
      dataWritesOn .little p rxBuf ++ confirmOn .little rxBuf := by
    unfold recvQrtrFromDevOn
    dsimp only
    rw [le32toh_load32, hfield, if_neg (by decide), if_neg (by decide), if_pos rfl]
  have hloop : received con.clientFd (dataWritesOn .little p rxBuf) =
      p.qrtrProxyConnection.flatMap fun qrtrCon =>
        received con.clientFd ((qrtrCon.clientQnode.filter (matchesPacket (hdrIn rxBuf))).map
          fun c => .toClient qrtrCon.clientFd (messageOn .little rxBuf c)) := by
    rw [dataWritesOn_eq, recipients, List.map_flatMap, received, List.filterMap_flatMap]
    simp only [List.map_map]
    rfl
  -- what goes to the clients of another connection does not come here
  have hother : ∀ qrtrCon ∈ p.qrtrProxyConnection, qrtrCon.clientFd ≠ con.clientFd →
      received con.clientFd ((qrtrCon.clientQnode.filter (matchesPacket (hdrIn rxBuf))).map
        fun c => .toClient qrtrCon.clientFd (messageOn .little rxBuf c)) = [] := by
    intro qrtrCon _ hne
    rw [received_map_toClient, if_neg hne]
  rw [devTurn, if_pos hpasses, hwrites, received_append, received_confirmOn, List.append_nil,
    hloop, Keyed.flatMap_eq_of_mem hs.fds_nodup hcon hother, received_map_toClient, if_pos rfl]

/-- On node 1 the port decides. -/
theorem filter_matchesPacket (hs : Served p) (hcon : con ∈ p.qrtrProxyConnection) {hdr : QrtrHdr}
    (hnode : hdr.dstNodeId = 1) (hport : hdr.dstPortId = c.portId) :
    con.clientQnode.filter (matchesPacket hdr) =
      con.clientQnode.filter fun c' => c'.portId = c.portId := by
  refine List.filter_congr fun c' hc' => ?_
  rw [matchesPacket, hs.node_of_mem hcon hc', hnode, hport, decide_eq_true rfl, Bool.true_and]

/-! ### Messages written out -/

/-- A message of the client with the body `x`. -/
def qmiMessage (c : QrtrProxyClient) (x : List UInt8) : List UInt8 :=
  [0x01] ++ le16 (x.length + qcqmiHdrSize - 1) ++ [0x00, c.qmiType, c.clientId] ++ x

theorem drop_qmiMessage (c : QrtrProxyClient) (x : List UInt8) :
    (qmiMessage c x).drop qcqmiHdrSize = x :=
  List.drop_left' rfl

theorem isMessageOf_qmiMessage (c : QrtrProxyClient) {x : List UInt8}
    (hx : qcqmiHdrSize + x.length ≤ rxBufSize) : IsMessageOf c (qmiMessage c x) := by
  have hlen : (qmiMessage c x).length = qcqmiHdrSize + x.length :=
    List.length_append
  have hsize : qmiSize (qmiMessage c x) = qcqmiHdrSize + x.length := by
    have hfield := le16At_le16 (x.length + qcqmiHdrSize - 1)
      ([0x00, c.qmiType, c.clientId] ++ x)
    have hdrop := le16At_drop (qmiMessage c x) 1 0
    rw [qmiSize, qmiHdrLength, ← hdrop]
    refine (congrArg (· + 1) hfield).trans ?_
    simp only [qcqmiHdrSize, rxBufSize] at *
    omega
  exact ⟨rfl, rfl, by omega, by omega, hlen.trans hsize.symm⟩

theorem field32_size {rxBuf : ℕ → UInt8} {hdr : QrtrHdr} (h : hdrIn rxBuf = hdr) :
    field32 rxBuf 20 = hdr.size :=
  congrArg QrtrHdr.size h

/-- The message that a client gets for a packet with the payload `x`. -/
theorem messageOn_store {hdr : QrtrHdr} {x padding : List UInt8}
    (h : IsDatagramFor c hdr x padding) (stale : ℕ → UInt8) :
    messageOn .little (store stale 0 (Packet.bytes ⟨hdr, x ++ padding⟩)) c = qmiMessage c x ∧
      qcqmiHdrSize + x.length ≤ rxBufSize := by
  have hroom : qrtrHdrSize + x.length ≤ rxBufSize := by
    have hfits := h.fits
    rw [Packet.bytes_length, List.length_append] at hfits
    omega
  have hsize := field32_size (hdrIn_store stale ⟨hdr, x ++ padding⟩)
  have hwrapped : wrapped (store stale 0 (Packet.bytes ⟨hdr, x ++ padding⟩)) c x.length =
      qmiMessage c x := by
    rw [wrapped, payload_store, qmiMessage]
  have hlen : (qmiMessage c x).length = qcqmiHdrSize + x.length :=
    List.length_append
  simp only [qrtrHdrSize, qcqmiHdrSize, rxBufSize] at *
  refine ⟨?_, by omega⟩
  rw [messageOn_eq, load32_little, hsize, h.size, hwrapped, List.take_of_length_le]
  rw [hlen, qcqmiHdrSize]
  omega

/-! ### The tunnel -/

/-- Clients that are apart: every message goes out by the port of its client. -/
theorem wraps_of_apart (hs : Served p) (hcon : con ∈ p.qrtrProxyConnection)
    (hmem : c ∈ con.clientQnode) (hapart : ClientsApart con.clientQnode) {m : List UInt8}
    (hm : IsMessageOf c m) : Wraps w p con.clientFd c m := by
  intro srv hsrv stale fresh
  obtain ⟨c', hmem', heq, hpacket⟩ :=
    @clientTurn_data w p con c hs hcon hmem m hm (hapart.not_ctl c hmem) srv hsrv stale fresh
  have hsame : c' = c := List.inj_on_of_nodup_map hapart.ids hmem' hmem heq
  rwa [hsame] at hpacket

/-- Every packet comes in as one message, which goes back as it came. -/
theorem unwraps_of_apart (hs : Served p) (hcon : con ∈ p.qrtrProxyConnection)
    (hmem : c ∈ con.clientQnode) (hapart : ClientsApart con.clientQnode) {hdr : QrtrHdr}
    {x padding : List UInt8} (h : IsDatagramFor c hdr x padding) :
    Unwraps w p con.clientFd c hdr x padding := by
  intro stale hpasses
  obtain ⟨hmessage, hroom⟩ := messageOn_store h stale
  have hhdr := hdrIn_store stale ⟨hdr, x ++ padding⟩
  have hm := isMessageOf_qmiMessage c hroom
  refine ⟨qmiMessage c x, ?_, hm, drop_qmiMessage c x, wraps_of_apart hs hcon hmem hapart hm⟩
  rw [received_devTurn hs hcon hpasses (by rw [hhdr]; exact h.type), hhdr,
    filter_matchesPacket hs hcon h.node h.port, Keyed.filter_eq_singleton hapart.ports hmem,
    List.map_singleton, hmessage]

/-- A packet without a payload for the client. -/
def emptyHdr (c : QrtrProxyClient) : QrtrHdr :=
  ⟨qrtrProtoVer1, qrtrTypeData, nodeModem, 9, 0, 0, 1, c.portId⟩

/-- A port at which every packet becomes one message is one client's. -/
theorem ports_of_transparent (hs : Served p) (hcon : con ∈ p.qrtrProxyConnection)
    (h : ∀ c ∈ con.clientQnode, ∀ hdr x padding, IsDatagramFor c hdr x padding →
      Unwraps w p con.clientFd c hdr x padding) :
    (con.clientQnode.map (·.portId)).Nodup := by
  refine List.nodup_iff_count_le_one.2 fun port => ?_
  by_cases hport : port ∈ con.clientQnode.map (·.portId)
  · obtain ⟨c, hmem, rfl⟩ := List.mem_map.1 hport
    -- a packet without a payload for this port: each client there makes a message of it
    have hfor : IsDatagramFor c (emptyHdr c) [] [] :=
      ⟨rfl, rfl, rfl, rfl, Packet.bytes_length _ ▸ (by decide : qrtrHdrSize + 0 ≤ rxBufSize)⟩
    have hhdr := hdrIn_store (fun _ => 0) ⟨emptyHdr c, []⟩
    have hpasses : DatagramPasses w (store (fun _ => 0) 0 (Packet.bytes ⟨emptyHdr c, []⟩)) 32 := by
      rw [datagramPasses_iff (by decide), hhdr]
      exact (by decide : align4 (0 + qrtrHdrSize) % 2 ^ 32 = 32)
    obtain ⟨m, hreceived, -⟩ := h c hmem (emptyHdr c) [] [] hfor (fun _ => 0) hpasses
    have hdevice := received_devTurn hs hcon hpasses (congrArg QrtrHdr.type hhdr)
    rw [hhdr, filter_matchesPacket hs hcon rfl rfl] at hdevice
    have hlen := congrArg List.length (hdevice.symm.trans hreceived)
    rw [List.length_map, List.length_singleton] at hlen
    rw [List.count, List.countP_map, List.countP_eq_length_filter]
    refine Nat.le_of_eq (Eq.trans ?_ hlen)
    congr 1
  · rw [List.count_eq_zero_of_not_mem hport]
    exact Nat.zero_le 1

/-- A client whose messages go out is no client of the control messages: those the proxy keeps. -/
theorem not_ctl_of_wraps (hs : Served p) (hcon : con ∈ p.qrtrProxyConnection)
    (hmem : c ∈ con.clientQnode)
    (h : ∀ m, IsMessageOf c m → Wraps w p con.clientFd c m) : c.qmiType ≠ qmuxTypeCtl := by
  intro hctl
  obtain ⟨srv, hsrv⟩ := hs.exists_service hcon hmem
  -- a `QMICTL_SYNC_REQ`
  let sync : List UInt8 := qmiMessage c [0x00, 1, 0x27, 0, 0, 0]
  have hm : IsMessageOf c sync := isMessageOf_qmiMessage c (by decide)
  obtain ⟨padding, -, -, hwrites⟩ := h sync hm srv hsrv (fun _ => 0) (fun _ => 0)
  obtain ⟨rest, hrest⟩ := messageIn_store (fun _ => 0) hm.fits
  have hsync : qmictlType (sync ++ rest) = qmictlSyncReq := rfl
  have hnothing : (recvQmiFromClient p (sync ++ rest) con.clientFd).2 = [] := by
    unfold recvQmiFromClient
    rw [hs.find_connection hcon]
    dsimp only
    rw [if_pos ((message_append hm.header rest).2.1.trans (hm.type.trans hctl)), if_pos hsync]
  rw [clientTurn, hrest, hnothing] at hwrites
  split at hwrites
  · cases hwrites
  · cases hwrites

/-- One packet is sent by one port. -/
theorem portId_eq_of_isDataPacket {c c' : QrtrProxyClient} {srv : QrtrService} {x : List UInt8}
    {ws : List Write} (h : IsDataPacket c srv x ws) (h' : IsDataPacket c' srv x ws) :
    c.portId = c'.portId := by
  obtain ⟨padding, -, -, hws⟩ := h
  obtain ⟨padding', -, -, hws'⟩ := h'
  have hbytes : Packet.bytes ⟨dataHdr c srv x.length, x ++ padding⟩ =
      Packet.bytes ⟨dataHdr c' srv x.length, x ++ padding'⟩ :=
    Write.toDev.inj (List.singleton_inj.1 (hws.symm.trans hws'))
  have hread := hdrIn_store (fun _ => 0) ⟨dataHdr c srv x.length, x ++ padding⟩
  rw [hbytes, hdrIn_store] at hread
  exact (congrArg QrtrHdr.srcPortId hread).symm

/-- Clients whose messages go out have different types or ids: two that have not would send one
message by two ports. -/
theorem ids_of_wraps (hs : Served p) (hcon : con ∈ p.qrtrProxyConnection)
    (hports : (con.clientQnode.map (·.portId)).Nodup)
    (h : ∀ c ∈ con.clientQnode, ∀ m, IsMessageOf c m → Wraps w p con.clientFd c m) :
    (con.clientQnode.map fun c => (c.qmiType, c.clientId)).Nodup := by
  refine List.Nodup.map_on (fun c hc c' hc' heq => ?_) (List.Nodup.of_map _ hports)
  obtain ⟨htype, hid⟩ := Prod.mk.inj heq
  obtain ⟨srv, hsrv⟩ := hs.exists_service hcon hc
  -- a message without a body, of both clients
  have hm : IsMessageOf c (qmiMessage c []) := isMessageOf_qmiMessage c (by decide)
  have hm' : IsMessageOf c' (qmiMessage c []) :=
    ⟨hm.type.trans htype, hm.id.trans hid, hm.header, hm.fits, hm.length⟩
  have hpacket := h c hc _ hm srv hsrv (fun _ => 0) (fun _ => 0)
  have hpacket' := h c' hc' _ hm' srv (htype ▸ hsrv) (fun _ => 0) (fun _ => 0)
  exact List.inj_on_of_nodup_map hports hc hc' (portId_eq_of_isDataPacket hpacket hpacket')

end

theorem Served.apart_iff {w : SizeT} {p : Proxy} (hs : Served p) :
    Transparent w p ↔ Apart p := by
  constructor
  · intro h con hcon
    have hports := ports_of_transparent hs hcon fun c hc => (h con hcon c hc).2
    exact ⟨hports, ids_of_wraps hs hcon hports fun c hc => (h con hcon c hc).1,
      fun c hc => not_ctl_of_wraps hs hcon hc (h con hcon c hc).1⟩
  · intro h con hcon c hc
    exact ⟨fun m hm => wraps_of_apart hs hcon hc (h con hcon) hm,
      fun hdr x padding hfor => unwraps_of_apart hs hcon hc (h con hcon) hfor⟩

/-! ### Whole runs -/

/-- **In every state that the proxy can reach, the tunnel is transparent exactly if the clients of
each connection are apart.** -/
theorem transparent_iff (w : SizeT) (servers : List QrtrService) (evs : List Event) :
    ∀ p ∈ EventRun.states step (start servers) evs, Transparent w p ↔ Apart p :=
  fun p hp => (served servers evs p hp).apart_iff

/-- A client that has connected and has a client id. -/
theorem transparent_getClientIdReq :
    let servers : List QrtrService := [⟨1, nodeModem, 9, 3, 9⟩]
    let p := acceptQrtrConnection (start servers) 5
    let q := (recvQmiFromClient p (getClientIdReq 1 1) 5).1
    q ∈ EventRun.states step (start servers) [.accept 5, .request 5 (getClientIdReq 1 1)] ∧
      (Transparent .bits32 q ↔ Apart q) := by
  intro servers p q
  have hq : q ∈ EventRun.states step (start servers)
      [.accept 5, .request 5 (getClientIdReq 1 1)] :=
    List.mem_cons_of_mem _ (List.mem_cons_of_mem _ List.mem_cons_self)
  exact ⟨hq, transparent_iff .bits32 servers _ q hq⟩

/-- Clients of one service that are apart are no more than there are client ids. -/
theorem length_le_of_apart {clients : List QrtrProxyClient} {t : UInt8}
    (h : (clients.map fun c => (c.qmiType, c.clientId)).Nodup) (ht : ∀ c ∈ clients, c.qmiType = t) :
    clients.length ≤ 256 := by
  have hinj : Function.Injective fun id : UInt8 => id.toNat + 1 := fun a b hab =>
    UInt8.toNat_inj.1 (Nat.succ_inj.1 hab)
  have hids : (clients.map fun c => c.clientId.toNat + 1).Nodup := by
    refine List.Nodup.map_on (fun c hc c' hc' heq => ?_) (List.Nodup.of_map _ h)
    exact List.inj_on_of_nodup_map h hc hc'
      (Prod.ext ((ht c hc).trans (ht c' hc').symm) (hinj heq))
  have hle := FirstFree.length_le_of_forall_lt (n := 256) hids fun id hid => by
    obtain ⟨c, -, rfl⟩ := List.mem_map.1 hid
    have hlt := c.clientId.toNat_lt
    omega
  rwa [List.length_map] at hle

/-- One client asks for a client id of the same service again and again. -/
theorem not_transparent : ¬ ∀ (w : SizeT) (servers : List QrtrService) (evs : List Event),
    ∀ p ∈ EventRun.states step (start servers) evs, Transparent w p := by
  intro hall
  obtain ⟨servers, evs, q, hq, hlen, hfds, htypes⟩ := exists_live_length_start 257
  have hapart := (served servers evs q hq).apart_iff.1 (hall .bits32 servers evs q hq)
  -- all clients are those of the one connection
  obtain ⟨con, hcon⟩ : ∃ con, q.qrtrProxyConnection = [con] :=
    List.length_eq_one_iff.1 ((List.length_map _).symm.trans (congrArg List.length hfds))
  have hlive : q.live = con.clientQnode := by
    rw [Proxy.live, hcon, List.flatMap_singleton]
  rw [hlive] at hlen htypes
  have hle := length_le_of_apart (hapart con (hcon ▸ List.mem_singleton_self con)).ids htypes
  omega

end QrtrProxy

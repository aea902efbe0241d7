/-
**The QRTR proxy on either host.**

The fields of a QRTR packet are little-endian.  `recv_qrtr_from_dev` converts the type before it
looks at it, and `handle_server_change` looks at it once more without a conversion; a data packet is
taken apart by a size that has not been converted.  This module runs the handlers on the bytes of a
packet, on a host of either order.

* `QrtrProxy.recvQrtrFromDevOn` — `recv_qrtr_from_dev` on a host;
* `QrtrProxy.recvQrtrFromDevOn_little` — on a little-endian host this is `recvQrtrFromDev`, which
  works on packets that have been read already;
* `QrtrProxy.SameOnBoth`, `QrtrProxy.agree_packet_iff` — **the packets that both hosts
  handle alike**;
* `QrtrProxy.sent_packets_eq` — what is sent in a run of such packets;
* `QrtrProxy.newServer_unknown` — the server that only one host knows is missed by a client.

A packet lies in memory from the address 0 on.  Memory is there, and a message is copied out of it
whatever its size is.
-/
import OpenwrtPackage.Lib.HostOrder
import OpenwrtPackage.QrtrProxy.Model

set_option relaxedAutoImplicit false
set_option autoImplicit false

namespace QrtrProxy

open Qmi Bytes Memory Host

/-! ### Packets as bytes -/

/-- `sizeof(struct qrtr_hdr_v1)` -/
def qrtrHdrSize : ℕ := 32

/-- What a handler does, byte for byte. -/
inductive Write where
  | toDev (bytes : List UInt8)
  | toClient (fd : ℤ) (bytes : List UInt8)
  | close (fd : ℤ)
  deriving DecidableEq

/-- The bytes of a packet. -/
def Packet.bytes (pkt : Packet) : List UInt8 :=
  le32 pkt.hdr.version ++ le32 pkt.hdr.type ++ le32 pkt.hdr.srcNodeId ++ le32 pkt.hdr.srcPortId ++
    le32 pkt.hdr.confirmRx ++ le32 pkt.hdr.size ++ le32 pkt.hdr.dstNodeId ++
    le32 pkt.hdr.dstPortId ++ pkt.payload

def Action.write : Action → Write
  | .toDev p => .toDev p.bytes
  | .toClient fd bytes => .toClient fd bytes
  | .close fd => .close fd

/-- The header of a packet in memory. -/
def hdrIn (mem : ℕ → UInt8) : QrtrHdr :=
  { version := field32 mem 0
    type := field32 mem 4
    srcNodeId := field32 mem 8
    srcPortId := field32 mem 12
    confirmRx := field32 mem 16
    size := field32 mem 20
    dstNodeId := field32 mem 24
    dstPortId := field32 mem 28 }

/-- A packet in memory, with as much behind its header as the handlers look at. -/
def packetIn (mem : ℕ → UInt8) : Packet :=
  ⟨hdrIn mem, load mem qrtrHdrSize (20 + (hdrIn mem).size.toNat)⟩

/-! ### The handlers on a host -/

/-- `align_4` -/
def align4 (n : ℕ) : ℕ := (n + 3) / 4 * 4

/-- `qrtr_node_enqueue` with `send_qrtr_to_dev`, which reads the size back. -/
def qrtrNodeEnqueueOn (e : Endian) (data : List UInt8) (type : UInt32) (src dst : SockaddrQrtr)
    (confirmRx : Bool) : List Write :=
  let hdr := bytes32 e (htole32 e qrtrProtoVer1) ++ bytes32 e (htole32 e type) ++
    bytes32 e (htole32 e src.sqNode) ++ bytes32 e (htole32 e src.sqPort) ++
    bytes32 e (htole32 e (if confirmRx then 1 else 0)) ++
    bytes32 e (htole32 e (UInt32.ofNat data.length)) ++
    bytes32 e (htole32 e dst.sqNode) ++ bytes32 e (htole32 e dst.sqPort)
  let size := align4 ((le32toh e (number32 e (hdr.drop 20))).toNat + qrtrHdrSize)
  [.toDev ((hdr ++ data).take size)]

/-- `send_ctrl_hello` -/
def sendCtrlHelloOn (e : Endian) (sqNode sqPort : UInt32) : List Write :=
  qrtrNodeEnqueueOn e (bytes32 e (htole32 e qrtrTypeHello) ++ List.replicate 16 0) qrtrTypeHello
    ⟨nodeMyself, qrtrPortCtrl⟩ ⟨sqNode, sqPort⟩ false

/-- `handle_server_change`, where the type of the packet is not converted. -/
def handleServerChangeOn (e : Endian) (p : Proxy) (mem : ℕ → UInt8) : Proxy :=
  let pkt := qrtrHdrSize
  if le32toh e (load32 e mem (pkt + 12)) ≠ nodeModem then p
  else if load32 e mem 4 = qrtrTypeNewServer then
    { p with
      qrtrServerList := p.qrtrServerList ++
        [{ service := le32toh e (load32 e mem (pkt + 4))
           node := le32toh e (load32 e mem (pkt + 12))
           port := le32toh e (load32 e mem (pkt + 16))
           srcNodeId := le32toh e (load32 e mem 8)
           srcPortId := le32toh e (load32 e mem 12) }] }
  else p

/-- The message that is written to the client `c`; the size of the packet is not converted. -/
def messageOn (e : Endian) (mem : ℕ → UInt8) (c : QrtrProxyClient) : List UInt8 :=
  let size := (load32 e mem 20).toNat
  let pQMI := [0x01] ++ bytes16 e (htole16 e (size + qcqmiHdrSize - 1)) ++
    [0x00, c.qmiType, c.clientId] ++ load mem qrtrHdrSize size
  pQMI.take (le16toh e (number16 e (pQMI.drop 1)) + 1)

/-- The loops over the connections and their clients. -/
def dataWritesOn (e : Endian) (p : Proxy) (mem : ℕ → UInt8) : List Write :=
  p.qrtrProxyConnection.flatMap fun qrtrCon =>
    qrtrCon.clientQnode.flatMap fun c =>
      if c.nodeId = le32toh e (load32 e mem 24) ∧ c.portId = le32toh e (load32 e mem 28) then
        [.toClient qrtrCon.clientFd (messageOn e mem c)]
      else []

/-- The answer to `confirm_rx`, into which two fields are copied as they are. -/
def confirmOn (e : Endian) (mem : ℕ → UInt8) : List Write :=
  if load32 e mem 16 ≠ 0 then
    qrtrNodeEnqueueOn e
      (bytes32 e (htole32 e qrtrTypeResumeTx) ++ bytes32 e (load32 e mem 24) ++
        bytes32 e (load32 e mem 28) ++ List.replicate 8 0)
      qrtrTypeResumeTx ⟨le32toh e (load32 e mem 24), le32toh e (load32 e mem 28)⟩
      ⟨le32toh e (load32 e mem 8), le32toh e (load32 e mem 12)⟩ false
  else []

/-- `recv_qrtr_from_dev` -/
def recvQrtrFromDevOn (e : Endian) (p : Proxy) (mem : ℕ → UInt8) : Proxy × List Write :=
  let type := le32toh e (load32 e mem 4)
  if type = qrtrTypeHello then
    (p, sendCtrlHelloOn e (le32toh e (load32 e mem 8)) (le32toh e (load32 e mem 12)))
  else if type = qrtrTypeNewServer ∨ type = qrtrTypeDelServer then
    (handleServerChangeOn e p mem, [])
  else if type = qrtrTypeData then (p, dataWritesOn e p mem ++ confirmOn e mem)
  else (p, [])

/-! ### What each handler writes -/

/-- The size is the sixth field of a header. -/
theorem drop_size (a b c d f n : UInt32) (rest : List UInt8) :
    (le32 a ++ le32 b ++ le32 c ++ le32 d ++ le32 f ++ le32 n ++ rest).drop 20 =
      le32 n ++ rest := by
  rw [List.append_assoc _ (le32 n)]
  exact List.drop_left' (by simp)

/-- A packet that is enqueued has the same bytes on every host. -/
theorem qrtrNodeEnqueueOn_eq (e : Endian) {data : List UInt8} (hlen : data.length < 2 ^ 32)
    (type : UInt32) (src dst : SockaddrQrtr) (confirmRx : Bool) :
    qrtrNodeEnqueueOn e data type src dst confirmRx =
      (qrtrNodeEnqueue data type src dst confirmRx).map Action.write := by
  have hsize : (UInt32.ofNat data.length).toNat = data.length := by
    rw [UInt32.toNat_ofNat']
    exact Nat.mod_eq_of_lt hlen
  have hread := le32At_le32 (UInt32.ofNat data.length) (le32 dst.sqNode ++ le32 dst.sqPort)
  simp only [qrtrNodeEnqueueOn, bytes32_htole32, le32toh_number32, qrtrNodeEnqueue, List.map_cons,
    List.map_nil, Action.write, Packet.bytes]
  rw [List.append_assoc _ (le32 dst.sqNode), drop_size, hread, hsize]
  -- the size that is read back covers the header and the payload
  have htake : data.length + qrtrHdrSize ≤ align4 (data.length + qrtrHdrSize) := by
    rw [align4]
    omega
  rw [List.take_of_length_le (by simp [qrtrHdrSize] at htake ⊢; omega)]

theorem sendCtrlHelloOn_eq (e : Endian) (sqNode sqPort : UInt32) :
    sendCtrlHelloOn e sqNode sqPort = (sendCtrlHello sqNode sqPort).map Action.write := by
  have hdata : bytes32 e (htole32 e qrtrTypeHello) ++ List.replicate 16 0 =
      clientCtrlPkt qrtrTypeHello 0 0 := by
    rw [bytes32_htole32]
    rfl
  rw [sendCtrlHelloOn, hdata]
  exact qrtrNodeEnqueueOn_eq e (by decide) _ _ _ _

/-- The answer to `confirm_rx` in the model of packets. -/
theorem confirmOn_eq (e : Endian) (mem : ℕ → UInt8) :
    confirmOn e mem =
      (if field32 mem 16 ≠ 0 then
        (qrtrNodeEnqueue (clientCtrlPkt qrtrTypeResumeTx (field32 mem 24) (field32 mem 28))
          qrtrTypeResumeTx ⟨field32 mem 24, field32 mem 28⟩ ⟨field32 mem 8, field32 mem 12⟩
          false).map Action.write
      else []) := by
  have hdata : bytes32 e (htole32 e qrtrTypeResumeTx) ++ bytes32 e (load32 e mem 24) ++
      bytes32 e (load32 e mem 28) ++ List.replicate 8 0 =
        clientCtrlPkt qrtrTypeResumeTx (field32 mem 24) (field32 mem 28) := by
    rw [bytes32_htole32, bytes32_load32, bytes32_load32]
    rfl
  have hzero := load32_eq_zero e mem 16
  unfold confirmOn
  rw [hdata]
  by_cases h : field32 mem 16 = 0
  · rw [if_neg (not_not.2 (hzero.2 h)), if_neg (not_not.2 h)]
  · rw [if_pos fun hc => h (hzero.1 hc), if_pos h]
    simp only [le32toh_load32]
    exact qrtrNodeEnqueueOn_eq e (by simp [clientCtrlPkt]) _ _ _ _

/-- The clients that a data packet goes to, with the descriptors of their connections. -/
def recipients (p : Proxy) (mem : ℕ → UInt8) : List (ℤ × QrtrProxyClient) :=
  p.qrtrProxyConnection.flatMap fun qrtrCon =>
    (qrtrCon.clientQnode.filter (matchesPacket (hdrIn mem))).map fun c => (qrtrCon.clientFd, c)

theorem matchesPacket_iff {hdr : QrtrHdr} {c : QrtrProxyClient} :
    matchesPacket hdr c = true ↔ c.nodeId = hdr.dstNodeId ∧ c.portId = hdr.dstPortId := by
  rw [matchesPacket, Bool.and_eq_true, decide_eq_true_iff, decide_eq_true_iff]

theorem dataWritesOn_eq (e : Endian) (p : Proxy) (mem : ℕ → UInt8) :
    dataWritesOn e p mem =
      (recipients p mem).map fun r => .toClient r.1 (messageOn e mem r.2) := by
  rw [dataWritesOn, recipients, List.map_flatMap]
  congr 1
  funext qrtrCon
  rw [List.map_map]
  induction qrtrCon.clientQnode with
  | nil => rfl
  | cons c rest ih =>
      rw [List.flatMap_cons, ih, List.filter_cons, le32toh_load32, le32toh_load32]
      by_cases hc : c.nodeId = field32 mem 24 ∧ c.portId = field32 mem 28
      · rw [if_pos hc, if_pos (matchesPacket_iff.2 hc)]
        rfl
      · rw [if_neg hc, if_neg fun hmatch => hc (matchesPacket_iff.1 hmatch)]
        rfl

theorem mem_recipients {p : Proxy} {mem : ℕ → UInt8} {c : QrtrProxyClient} :
    (∃ fd, (fd, c) ∈ recipients p mem) ↔ c ∈ p.live ∧ matchesPacket (hdrIn mem) c = true := by
  simp only [recipients, Proxy.live, List.mem_flatMap, List.mem_map, List.mem_filter]
  constructor
  · rintro ⟨fd, qrtrCon, hcon, c', ⟨hc', hmatch⟩, heq⟩
    obtain ⟨-, rfl⟩ := Prod.mk.inj heq
    exact ⟨⟨qrtrCon, hcon, hc'⟩, hmatch⟩
  · rintro ⟨⟨qrtrCon, hcon, hc⟩, hmatch⟩
    exact ⟨qrtrCon.clientFd, qrtrCon, hcon, c, ⟨hc, hmatch⟩, rfl⟩

/-- The message before it is cut to its length. -/
def wrapped (mem : ℕ → UInt8) (c : QrtrProxyClient) (size : ℕ) : List UInt8 :=
  [0x01] ++ le16 (size + qcqmiHdrSize - 1) ++ [0x00, c.qmiType, c.clientId] ++
    load mem qrtrHdrSize size

theorem messageOn_eq (e : Endian) (mem : ℕ → UInt8) (c : QrtrProxyClient) :
    messageOn e mem c =
      (wrapped mem c (load32 e mem 20).toNat).take
        (((load32 e mem 20).toNat + qcqmiHdrSize - 1) % 65536 + 1) := by
  have hlength := le16At_le16 ((load32 e mem 20).toNat + qcqmiHdrSize - 1)
    ([0x00, c.qmiType, c.clientId] ++ load mem qrtrHdrSize (load32 e mem 20).toNat)
  simp only [messageOn, wrapped, bytes16_htole16, le16toh_number16]
  rw [← hlength]
  rfl

theorem messageOn_length (e : Endian) (mem : ℕ → UInt8) (c : QrtrProxyClient) :
    (messageOn e mem c).length =
      ((load32 e mem 20).toNat + qcqmiHdrSize - 1) % 65536 + 1 := by
  rw [messageOn_eq, List.length_take]
  simp only [wrapped, List.length_append, List.length_cons, List.length_nil, le16_length,
    length_load, qcqmiHdrSize]
  omega

/-- **The message has the same bytes on both hosts exactly when the size is its own swap.** -/
theorem messageOn_agree_iff (mem : ℕ → UInt8) (c : QrtrProxyClient) :
    messageOn .little mem c = messageOn .big mem c ↔
      bswap32 (field32 mem 20) = field32 mem 20 := by
  constructor
  · intro h
    have hlen := congrArg List.length h
    rw [messageOn_length, messageOn_length, load32_little, load32_big] at hlen
    refine bswap32_eq_self_of_mod ?_
    simp only [qcqmiHdrSize] at hlen
    omega
  · intro h
    rw [messageOn_eq, messageOn_eq, load32_big, load32_little, h]

/-! ### Both hosts -/

/-- A server that the packet does not bring on this host. -/
theorem handleServerChangeOn_of_ne {e : Endian} {mem : ℕ → UInt8} (p : Proxy)
    (h : load32 e mem 4 ≠ qrtrTypeNewServer) : handleServerChangeOn e p mem = p := by
  unfold handleServerChangeOn
  dsimp only
  rw [if_neg h, ite_self]

/-- The two hosts keep one list of servers exactly when the server is not on the modem. -/
theorem handleServerChangeOn_agree_iff {mem : ℕ → UInt8} (p : Proxy)
    (h : field32 mem 4 = qrtrTypeNewServer) :
    handleServerChangeOn .little p mem = handleServerChangeOn .big p mem ↔
      field32 mem (qrtrHdrSize + 12) ≠ nodeModem := by
  have hbig : load32 .big mem 4 ≠ qrtrTypeNewServer := by
    rw [load32_big, h]
    decide
  rw [handleServerChangeOn_of_ne p hbig]
  unfold handleServerChangeOn
  dsimp only
  rw [le32toh_load32, load32_little]
  by_cases hnode : field32 mem (qrtrHdrSize + 12) = nodeModem
  · rw [if_neg (not_not.2 hnode), if_pos h]
    constructor
    · intro heq
      have hlen := congrArg (fun p : Proxy => p.qrtrServerList.length) heq
      simp at hlen
    · intro hne
      exact absurd hnode hne
  · rw [if_pos hnode]
    exact ⟨fun _ => hnode, fun _ => rfl⟩

/-- The two hosts send the same exactly when the size is its own swap, or nobody is there. -/
theorem dataWritesOn_agree_iff (p : Proxy) (mem : ℕ → UInt8) :
    dataWritesOn .little p mem = dataWritesOn .big p mem ↔
      bswap32 (field32 mem 20) = field32 mem 20 ∨
        ∀ c ∈ p.live, matchesPacket (hdrIn mem) c = false := by
  rw [dataWritesOn_eq, dataWritesOn_eq, List.map_inj_left]
  constructor
  · intro h
    by_cases hsize : bswap32 (field32 mem 20) = field32 mem 20
    · exact Or.inl hsize
    · refine Or.inr fun c hc => Bool.eq_false_iff.2 fun hmatch => hsize ?_
      obtain ⟨fd, hr⟩ := mem_recipients.2 ⟨hc, hmatch⟩
      exact (messageOn_agree_iff mem c).1 (Write.toClient.inj (h _ hr)).2
  · rintro (hsize | hnone) ⟨fd, c⟩ hr
    · exact congrArg (Write.toClient fd) ((messageOn_agree_iff mem c).2 hsize)
    · obtain ⟨hc, hmatch⟩ := mem_recipients.1 ⟨fd, hr⟩
      exact absurd hmatch (by simp [hnone c hc])

/-- A packet that both hosts handle alike. -/
def SameOnBoth (p : Proxy) (mem : ℕ → UInt8) : Prop :=
  (field32 mem 4 = qrtrTypeNewServer → field32 mem (qrtrHdrSize + 12) ≠ nodeModem) ∧
    (field32 mem 4 = qrtrTypeData → bswap32 (field32 mem 20) = field32 mem 20 ∨
      ∀ c ∈ p.live, matchesPacket (hdrIn mem) c = false)

/-- **The packets that both hosts handle alike.** -/
theorem agree_packet_iff (p : Proxy) (mem : ℕ → UInt8) :
    Agree recvQrtrFromDevOn p mem ↔ SameOnBoth p mem := by
  unfold Agree recvQrtrFromDevOn SameOnBoth
  dsimp only
  simp only [le32toh_load32]
  -- The type of a packet is read alike on both hosts, so the cases follow the branches of the
  -- receiver.
  by_cases hhello : field32 mem 4 = qrtrTypeHello
  · rw [if_pos hhello, if_pos hhello, sendCtrlHelloOn_eq, sendCtrlHelloOn_eq, hhello]
    exact iff_of_true rfl ⟨fun h => absurd h (by decide), fun h => absurd h (by decide)⟩
  rw [if_neg hhello, if_neg hhello]
  by_cases hnew : field32 mem 4 = qrtrTypeNewServer
  · rw [if_pos (Or.inl hnew), if_pos (Or.inl hnew), Prod.mk.injEq,
      handleServerChangeOn_agree_iff p hnew]
    constructor
    · rintro ⟨hnode, -⟩
      exact ⟨fun _ => hnode, fun hdata => absurd (hnew.symm.trans hdata) (by decide)⟩
    · rintro ⟨hnode, -⟩
      exact ⟨hnode hnew, rfl⟩
  by_cases hdel : field32 mem 4 = qrtrTypeDelServer
  · have hlittle : load32 .little mem 4 ≠ qrtrTypeNewServer := hnew
    have hbig : load32 .big mem 4 ≠ qrtrTypeNewServer := by
      rw [load32_big, hdel]
      decide
    rw [if_pos (Or.inr hdel), if_pos (Or.inr hdel), handleServerChangeOn_of_ne p hlittle,
      handleServerChangeOn_of_ne p hbig]
    exact iff_of_true rfl ⟨fun h => absurd h hnew,
      fun hdata => absurd (hdel.symm.trans hdata) (by decide)⟩
  have hserver : ¬ (field32 mem 4 = qrtrTypeNewServer ∨ field32 mem 4 = qrtrTypeDelServer) :=
    fun h => h.elim hnew hdel
  rw [if_neg hserver, if_neg hserver]
  by_cases hdata : field32 mem 4 = qrtrTypeData
  · rw [if_pos hdata, if_pos hdata, Prod.mk.injEq, confirmOn_eq, confirmOn_eq,
      List.append_left_inj, dataWritesOn_agree_iff]
    exact ⟨fun h => ⟨fun h' => absurd h' hnew, fun _ => h.2⟩, fun h => ⟨rfl, h.2 hdata⟩⟩
  · rw [if_neg hdata, if_neg hdata]
    exact iff_of_true rfl ⟨fun h => absurd h hnew, fun h => absurd h hdata⟩

/-- What is sent in a run of packets that both hosts handle alike. -/
theorem sent_packets_eq (p : Proxy) (packets : List (ℕ → UInt8))
    (h : Agrees recvQrtrFromDevOn p packets) :
    sent recvQrtrFromDevOn .little p packets = sent recvQrtrFromDevOn .big p packets :=
  sent_eq_of_agrees recvQrtrFromDevOn p packets h

/-! ### The little-endian host -/

theorem wrapQmi_packetIn (mem : ℕ → UInt8) (c : QrtrProxyClient) :
    wrapQmi (packetIn mem) c = wrapped mem c (field32 mem 20).toNat := by
  have htake : (packetIn mem).payload.take (hdrIn mem).size.toNat =
      load mem qrtrHdrSize (hdrIn mem).size.toNat := take_load mem _ (by omega)
  rw [wrapQmi, wrapped]
  exact congrArg (_ ++ ·) htake

theorem sendQmiToClient_packetIn (mem : ℕ → UInt8) (c : QrtrProxyClient) (fd : ℤ) :
    (sendQmiToClient (wrapQmi (packetIn mem) c) fd).map Action.write =
      [.toClient fd (messageOn .little mem c)] := by
  have hlength : qmiSize (wrapped mem c (field32 mem 20).toNat) =
      ((field32 mem 20).toNat + qcqmiHdrSize - 1) % 65536 + 1 := by
    rw [qmiSize, qmiHdrLength, ← le16At_drop (i := 0)]
    exact congrArg (· + 1) (le16At_le16 _ _)
  rw [wrapQmi_packetIn, sendQmiToClient, hlength, messageOn_eq, load32_little]
  rfl

theorem dataWritesOn_little (p : Proxy) (mem : ℕ → UInt8) :
    dataWritesOn .little p mem = (dataWrites p (packetIn mem)).map Action.write := by
  rw [dataWritesOn, dataWrites, List.map_flatMap]
  congr 1
  funext qrtrCon
  rw [List.map_flatMap]
  congr 1
  funext c
  rw [le32toh_load32, le32toh_load32]
  by_cases hc : c.nodeId = field32 mem 24 ∧ c.portId = field32 mem 28
  · have hmatch : matchesPacket (packetIn mem).hdr c = true := matchesPacket_iff.2 hc
    rw [if_pos hc, if_pos hmatch, sendQmiToClient_packetIn]
  · have hmatch : ¬ matchesPacket (packetIn mem).hdr c = true := fun h =>
      hc (matchesPacket_iff.1 h)
    rw [if_neg hc, if_neg hmatch]
    rfl

theorem handleServerChangeOn_little (p : Proxy) (mem : ℕ → UInt8) :
    handleServerChangeOn .little p mem = handleServerChange p (packetIn mem) := by
  have hfield : ∀ i < 17, le32At (packetIn mem).payload i = field32 mem (qrtrHdrSize + i) :=
    fun i hi => le32At_load mem qrtrHdrSize (by omega)
  simp only [handleServerChangeOn, handleServerChange, load32_little]
  rw [hfield 12 (by decide), hfield 4 (by decide), hfield 16 (by decide)]
  rfl

/-- On a little-endian host the bytes are handled as the packet they stand for. -/
theorem recvQrtrFromDevOn_little (p : Proxy) (mem : ℕ → UInt8) :
    recvQrtrFromDevOn .little p mem =
      ((recvQrtrFromDev p (packetIn mem)).1,
        (recvQrtrFromDev p (packetIn mem)).2.map Action.write) := by
  have hconfirm := confirmOn_eq .little mem
  have htype : (packetIn mem).hdr.type = field32 mem 4 := rfl
  unfold recvQrtrFromDevOn recvQrtrFromDev
  dsimp only
  rw [le32toh_load32, htype]
  by_cases hhello : field32 mem 4 = qrtrTypeHello
  · rw [if_pos hhello, if_pos hhello, sendCtrlHelloOn_eq, le32toh_load32, le32toh_load32]
    rfl
  rw [if_neg hhello, if_neg hhello]
  by_cases hserver : field32 mem 4 = qrtrTypeNewServer ∨ field32 mem 4 = qrtrTypeDelServer
  · rw [if_pos hserver, if_pos hserver, handleServerChangeOn_little, List.map_nil]
  rw [if_neg hserver, if_neg hserver]
  by_cases hdata : field32 mem 4 = qrtrTypeData
  · rw [if_pos hdata, if_pos hdata, dataWritesOn_little, hconfirm, List.map_append,
      apply_ite (List.map Action.write), List.map_nil]
    simp only [packetIn, hdrIn]
    congr
  · rw [if_neg hdata, if_neg hdata]
    rfl

/-- The server that only one host knows is missed by a client that asks for it. -/
theorem newServer_unknown {p : Proxy} {mem : ℕ → UInt8} {qmiType : UInt8}
    (hnew : field32 mem 4 = qrtrTypeNewServer)
    (hnode : field32 mem (qrtrHdrSize + 12) = nodeModem)
    (hservice : field32 mem (qrtrHdrSize + 4) = qmiType.toUInt32)
    (hunknown : findQrtrService p.qrtrServerList qmiType = none) :
    (findQrtrService (handleServerChangeOn .little p mem).qrtrServerList qmiType).isSome = true ∧
      findQrtrService (handleServerChangeOn .big p mem).qrtrServerList qmiType = none := by
  constructor
  · unfold handleServerChangeOn
    dsimp only
    rw [le32toh_load32, load32_little, if_neg (not_not.2 hnode), if_pos hnew, findQrtrService,
      List.find?_append, ← findQrtrService, hunknown]
    simp [hservice]
  · have hbig : load32 .big mem 4 ≠ qrtrTypeNewServer := by
      rw [load32_big, hnew]
      decide
    rw [handleServerChangeOn_of_ne p hbig]
    exact hunknown

end QrtrProxy

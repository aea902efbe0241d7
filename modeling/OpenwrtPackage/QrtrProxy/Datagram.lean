/-
**What the QRTR proxy reads and writes.**

One turn of `qrtr_proxy_loop` from the bytes that are read to the bytes that are written: a datagram
of the device or a message of a client comes into `rx_buf`, is checked, handled, and answered by
packets and messages.

* `QrtrProxy.clientTurn`, `QrtrProxy.devTurn` — the two turns;
* `QrtrProxy.sendQrtrToDev` — the bytes of a packet that are written, rounded up to a multiple of
  four;
* `QrtrProxy.hdrIn_store`, `QrtrProxy.payload_store` — a packet that has been read in is the packet
  that was sent;
* `QrtrProxy.messageIn_store` — a message that has been read in stands in front of what is left
  over;
* `QrtrProxy.sendQrtrToDev_eq` — **a packet is written as it is, with up to three bytes behind it**.

The host is little-endian.
-/
import OpenwrtPackage.QrtrProxy.Framing

set_option relaxedAutoImplicit false
set_option autoImplicit false

namespace QrtrProxy

open Qmi Bytes Memory Host MachineInt

/-! ### Turns of the loop -/

/-- What `send_qrtr_to_dev` writes of the buffer that `qrtr_node_enqueue` has filled; `fresh` is the
buffer as `malloc` has returned it. -/
def sendQrtrToDev (w : SizeT) (fresh : ℕ → UInt8) (pkt : Packet) : List UInt8 :=
  load (store fresh 0 pkt.bytes) 0
    (alignSizeT w (w.ofInt (pkt.hdr.size.toNat + qrtrHdrSize : ℕ)))

def Action.onWire (w : SizeT) (fresh : ℕ → UInt8) : Action → Write
  | .toDev pkt => .toDev (sendQrtrToDev w fresh pkt)
  | .toClient fd bytes => .toClient fd bytes
  | .close fd => .close fd

/-- `nreads` bytes have been read from a client. -/
def clientTurn (w : SizeT) (p : Proxy) (rxBuf : ℕ → UInt8) (nreads : ℕ) (clientfd : ℤ)
    (fresh : ℕ → UInt8) : List Write :=
  if MessagePasses rxBuf nreads then
    (recvQmiFromClient p (messageIn rxBuf) clientfd).2.map (Action.onWire w fresh)
  else []

/-- `nreads` bytes have been read from the device. -/
def devTurn (w : SizeT) (p : Proxy) (rxBuf : ℕ → UInt8) (nreads : ℕ) : List Write :=
  if DatagramPasses w rxBuf nreads then (recvQrtrFromDevOn .little p rxBuf).2 else []

/-- The messages that are written to a connection. -/
def received (clientfd : ℤ) (ws : List Write) : List (List UInt8) :=
  ws.filterMap fun write => match write with
    | .toClient fd bytes => if fd = clientfd then some bytes else none
    | _ => none

/-! ### Reading a packet -/

theorem Packet.bytes_length (pkt : Packet) :
    pkt.bytes.length = qrtrHdrSize + pkt.payload.length := by
  simp only [Packet.bytes, List.length_append, le32_length, qrtrHdrSize]

theorem Packet.bytes_append (hdr : QrtrHdr) (x padding : List UInt8) :
    Packet.bytes ⟨hdr, x ++ padding⟩ = Packet.bytes ⟨hdr, x⟩ ++ padding := by
  simp only [Packet.bytes, List.append_assoc]

/-- The header of a packet is read back. -/
theorem hdrIn_store (mem : ℕ → UInt8) (pkt : Packet) : hdrIn (store mem 0 pkt.bytes) = pkt.hdr := by
  obtain ⟨⟨version, type, srcNodeId, srcPortId, confirmRx, size, dstNodeId, dstPortId⟩, x⟩ := pkt
  let fields := [version, type, srcNodeId, srcPortId, confirmRx, size, dstNodeId, dstPortId]
  have hbytes : Packet.bytes ⟨⟨version, type, srcNodeId, srcPortId, confirmRx, size, dstNodeId,
      dstPortId⟩, x⟩ = fields.flatMap le32 ++ x := by
    simp only [Packet.bytes, fields, List.flatMap_cons, List.flatMap_nil, List.append_assoc,
      List.nil_append]
  have hrow : ∀ (i : ℕ) (h : i < 8),
      field32 (store mem 0 (fields.flatMap le32 ++ x)) (0 + 4 * i) = fields[i] :=
    fun i h => field32_store_row mem 0 fields x h
  rw [hbytes]
  generalize store mem 0 (fields.flatMap le32 ++ x) = rxBuf at *
  simp only [hdrIn, QrtrHdr.mk.injEq]
  exact ⟨hrow 0 (by decide), hrow 1 (by decide), hrow 2 (by decide), hrow 3 (by decide),
    hrow 4 (by decide), hrow 5 (by decide), hrow 6 (by decide), hrow 7 (by decide)⟩

/-- The payload of a packet is read back, whatever has come behind it. -/
theorem payload_store (mem : ℕ → UInt8) (hdr : QrtrHdr) (x padding : List UInt8) :
    load (store mem 0 (Packet.bytes ⟨hdr, x ++ padding⟩)) qrtrHdrSize x.length = x := by
  have hbytes : Packet.bytes ⟨hdr, x ++ padding⟩ = Packet.bytes ⟨hdr, []⟩ ++ (x ++ padding) :=
    Packet.bytes_append hdr [] (x ++ padding)
  have hload := load_store_mid mem 0 (Packet.bytes ⟨hdr, []⟩) x padding
  rwa [← hbytes, Packet.bytes_length, Nat.zero_add, List.length_nil, Nat.add_zero] at hload

/-! ### Reading a message -/

/-- The message stands at the front of the buffer. -/
theorem messageIn_store (stale : ℕ → UInt8) {m : List UInt8} (hlen : m.length ≤ rxBufSize) :
    ∃ rest, messageIn (store stale 0 m) = m ++ rest := by
  obtain ⟨k, hk⟩ := Nat.exists_eq_add_of_le hlen
  refine ⟨load (store stale 0 m) (0 + m.length) k, ?_⟩
  rw [messageIn, hk, load_append, load_store_self]

/-! ### Writing a packet -/

/-- Sizes that fit into 32 bits are rounded up as numbers. -/
theorem alignSizeT_of_lt (w : SizeT) {n : ℕ} (h : n + 3 < 2 ^ 32) :
    alignSizeT w (w.ofInt n) = align4 n := by
  have hmodulus := w.modulus_ge
  have hn : w.ofInt n = n := w.ofInt_of_lt (by omega)
  rw [hn, alignSizeT, w.ofInt_of_lt (by omega), align4]

/-- **A packet is written as it is, with up to three bytes behind it.** -/
theorem sendQrtrToDev_eq (w : SizeT) (fresh : ℕ → UInt8) {hdr : QrtrHdr} {x : List UInt8}
    (hsize : hdr.size.toNat = x.length) (hlen : x.length ≤ rxBufSize) :
    ∃ padding, padding.length < 4 ∧ 4 ∣ (x ++ padding).length ∧
      sendQrtrToDev w fresh ⟨hdr, x⟩ = Packet.bytes ⟨hdr, x ++ padding⟩ := by
  unfold rxBufSize at hlen
  have hround : alignSizeT w (w.ofInt (hdr.size.toNat + qrtrHdrSize : ℕ)) =
      qrtrHdrSize + x.length + (align4 x.length - x.length) := by
    rw [hsize, alignSizeT_of_lt w (by unfold qrtrHdrSize; omega)]
    unfold align4 qrtrHdrSize
    omega
  refine ⟨load (store fresh 0 (Packet.bytes ⟨hdr, x⟩)) (qrtrHdrSize + x.length)
    (align4 x.length - x.length), ?_, ?_, ?_⟩
  · rw [length_load, align4]
    omega
  · rw [List.length_append, length_load, align4]
    omega
  · have hself := load_store_self fresh 0 (Packet.bytes ⟨hdr, x⟩)
    rw [Packet.bytes_length] at hself
    rw [sendQrtrToDev, hround, load_append, hself, Packet.bytes_append, Nat.zero_add]

end QrtrProxy

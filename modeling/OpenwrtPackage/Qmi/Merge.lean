/-
**Merged QMI responses.**

Some hosts cannot read more than 64 bytes at once, so the device cuts a QMI message into packets of
56 bytes and puts a header in front of each: how long the piece is, and how long the message.
`merge_qmi_rsp_packet` of the proxy and `QmiWwanMergeQmiRsp` of the connection manager, which have
the same text, collect the pieces in a static buffer.

* `Qmi.mergeQmiRspPacket`, `Qmi.qmiWwanMergeQmiRsp` — the two functions;
* `Qmi.mergePacket` — a packet of a message;
* `Qmi.merge_single`, `Qmi.merge_piece` — what a packet does that is the whole message, and one
  that is not;
* `Qmi.feed_cut` — the packets of one message;
* `Qmi.reassembles` — **every message comes out whole, with its last packet and not before**.

The buffers begin at the address 0 of flat memories.  The one-packet path copies a message within
one buffer, from its first byte to its last.
-/
import Mathlib.Data.Int.Notation
import OpenwrtPackage.Lib.Bytes
import OpenwrtPackage.Lib.Cut
import OpenwrtPackage.Lib.Memory

set_option relaxedAutoImplicit false
set_option autoImplicit false

namespace Qmi

open Bytes Memory Pieces

/-! ### The function -/

def mergePacketIdentity : ℕ := 0x2c7c

def mergePacketVersion : ℕ := 0x0001

def mergePacketMaxPayloadSize : ℕ := 56

/-- `sizeof(QMI_MSG_HEADER)` -/
def qmiMsgHeaderSize : ℕ := 8

/-- `QMI_MSG_PACKET` but for its header, which nobody uses. -/
structure QmiMsgPacket where
  len : ℕ
  buf : ℕ → UInt8

/-- What a call leaves behind: its result, the static buffer, `buf` and `*src_size`.  `copied`
counts the bytes that it has taken from behind the header. -/
structure Merged where
  ret : ℤ
  packet : QmiMsgPacket
  buf : ℕ → UInt8
  srcSize : ℕ
  copied : ℕ

/-- The header of the packet in `buf`. -/
def headerIn (buf : ℕ → UInt8) : List UInt8 := load buf 0 qmiMsgHeaderSize

def idenity (header : List UInt8) : ℕ := le16At header 0

def version (header : List UInt8) : ℕ := le16At header 2

def curLen (header : List UInt8) : ℕ := le16At header 4

def totalLen (header : List UInt8) : ℕ := le16At header 6

/-- The packet is not thrown away. -/
def Accepted (buf : ℕ → UInt8) (size : ℕ) : Prop :=
  qmiMsgHeaderSize ≤ size % 65536 ∧ idenity (headerIn buf) = mergePacketIdentity ∧
    version (headerIn buf) = mergePacketVersion ∧
    curLen (headerIn buf) ≤ totalLen (headerIn buf)

instance (buf : ℕ → UInt8) (size : ℕ) : Decidable (Accepted buf size) :=
  inferInstanceAs (Decidable (_ ∧ _ ∧ _ ∧ _))

/-- The body of the two functions. -/
def mergeRsp (sQMIPacket : QmiMsgPacket) (buf : ℕ → UInt8) (size : ℕ) : Merged :=
  let header := headerIn buf
  if ¬ Accepted buf size then ⟨-1, sQMIPacket, buf, size, 0⟩
  else if curLen header = totalLen header then
    ⟨0, { sQMIPacket with len := 0 }, store buf 0 (load buf qmiMsgHeaderSize (totalLen header)),
      totalLen header, totalLen header⟩
  else
    let merged : QmiMsgPacket :=
      { len := (sQMIPacket.len + curLen header) % 65536
        buf := store sQMIPacket.buf sQMIPacket.len (load buf qmiMsgHeaderSize (curLen header)) }
    if curLen header < mergePacketMaxPayloadSize ∨ totalLen header ≤ merged.len then
      ⟨0, { merged with len := 0 }, store buf 0 (load merged.buf 0 merged.len), merged.len,
        curLen header⟩
    else ⟨-1, merged, buf, size, curLen header⟩

/-- `merge_qmi_rsp_packet` -/
def mergeQmiRspPacket (sQMIPacket : QmiMsgPacket) (buf : ℕ → UInt8) (size : ℕ) : Merged :=
  mergeRsp sQMIPacket buf size

/-- `QmiWwanMergeQmiRsp` -/
def qmiWwanMergeQmiRsp (sQMIPacket : QmiMsgPacket) (buf : ℕ → UInt8) (size : ℕ) : Merged :=
  mergeRsp sQMIPacket buf size

/-! ### The packets of a message -/

/-- A `QMI_MSG_HEADER`. -/
def mergeHeader (cur total : ℕ) : List UInt8 :=
  le16 mergePacketIdentity ++ le16 mergePacketVersion ++ le16 cur ++ le16 total

/-- A packet with the piece `payload` of a message of `total` bytes. -/
def mergePacket (total : ℕ) (payload : List UInt8) : List UInt8 :=
  mergeHeader payload.length total ++ payload

/-- What one `read` gives: the bytes of a packet, at the front of a buffer. -/
structure PacketRead where
  bytes : List UInt8
  behind : ℕ → UInt8

/-- The buffer after the read. -/
def PacketRead.buf (r : PacketRead) : ℕ → UInt8 := store r.behind 0 r.bytes

/-- What the calls of `merge` for a row of packets return: nothing for `-1`, and for 0 the message
in the buffer. -/
def feed (merge : QmiMsgPacket → (ℕ → UInt8) → ℕ → Merged) :
    QmiMsgPacket → List PacketRead → List (Option (List UInt8)) × QmiMsgPacket
  | s, [] => ([], s)
  | s, r :: rs =>
      let m := merge s r.buf r.bytes.length
      let rest := feed merge m.packet rs
      ((if m.ret = 0 then some (load m.buf 0 m.srcSize) else none) :: rest.1, rest.2)

/-- The static buffer holds the pieces that have come in. -/
def QmiMsgPacket.Holds (s : QmiMsgPacket) (acc : List UInt8) : Prop :=
  s.len = acc.length ∧ load s.buf 0 acc.length = acc

theorem QmiMsgPacket.holds_nil {s : QmiMsgPacket} (h : s.len = 0) : s.Holds [] := ⟨h, rfl⟩

theorem mergeHeader_fields {cur total : ℕ} (hcur : cur < 65536) (htotal : total < 65536) :
    idenity (mergeHeader cur total) = mergePacketIdentity ∧
      version (mergeHeader cur total) = mergePacketVersion ∧
      curLen (mergeHeader cur total) = cur ∧ totalLen (mergeHeader cur total) = total := by
  have hcur' : le16At (le16 cur ++ le16 total) 0 = cur :=
    (le16At_le16 cur (le16 total)).trans (Nat.mod_eq_of_lt hcur)
  have htotal' : le16At (le16 total ++ []) 0 = total :=
    (le16At_le16 total []).trans (Nat.mod_eq_of_lt htotal)
  refine ⟨?_, ?_, ?_, ?_⟩
  · exact le16At_le16 mergePacketIdentity _
  · exact (le16At_drop (mergeHeader cur total) 2 0).symm.trans (le16At_le16 mergePacketVersion _)
  · exact (le16At_drop (mergeHeader cur total) 4 0).symm.trans hcur'
  · exact (le16At_drop (mergeHeader cur total) 6 0).symm.trans htotal'

section

variable {r : PacketRead} {s : QmiMsgPacket} {total : ℕ} {payload acc : List UInt8}

/-- A packet in the buffer: its header, its piece, and its size. -/
theorem packet_in (hr : r.bytes = mergePacket total payload) :
    headerIn r.buf = mergeHeader payload.length total ∧
      load r.buf qmiMsgHeaderSize payload.length = payload ∧
      r.bytes.length = qmiMsgHeaderSize + payload.length := by
  have hsize : (mergeHeader payload.length total).length = qmiMsgHeaderSize := rfl
  refine ⟨?_, ?_, ?_⟩
  · rw [headerIn, PacketRead.buf, hr, mergePacket, ← hsize, load_store_append]
  · have hmid := load_store_mid r.behind 0 (mergeHeader payload.length total) payload []
    rwa [List.append_nil, Nat.zero_add, hsize, ← mergePacket, ← hr] at hmid
  · rw [hr, mergePacket, List.length_append, hsize]

theorem packet_accepted (hr : r.bytes = mergePacket total payload) (hle : payload.length ≤ total)
    (htotal : total < 65528) : Accepted r.buf r.bytes.length := by
  obtain ⟨hheader, -, hlen⟩ := packet_in hr
  obtain ⟨hid, hversion, hcur, htot⟩ :=
    @mergeHeader_fields payload.length total (by omega) (by omega)
  refine ⟨?_, ?_⟩
  · rw [hlen, qmiMsgHeaderSize]
    omega
  · rw [hheader, hid, hversion, hcur, htot]
    exact ⟨rfl, rfl, hle⟩

/-- A message that is one packet. -/
theorem merge_single (hr : r.bytes = mergePacket payload.length payload)
    (htotal : payload.length < 65528) :
    (mergeRsp s r.buf r.bytes.length).ret = 0 ∧ (mergeRsp s r.buf r.bytes.length).packet.len = 0 ∧
      load (mergeRsp s r.buf r.bytes.length).buf 0 (mergeRsp s r.buf r.bytes.length).srcSize =
        payload := by
  have haccepted := packet_accepted hr (Nat.le_refl _) htotal
  obtain ⟨hheader, hpayload, -⟩ := packet_in hr
  obtain ⟨-, -, hcur, htot⟩ :=
    @mergeHeader_fields payload.length payload.length (by omega) (by omega)
  have hmerge : mergeRsp s r.buf r.bytes.length = ⟨0, { s with len := 0 },
      store r.buf 0 payload, payload.length, payload.length⟩ := by
    unfold mergeRsp
    dsimp only
    rw [if_neg (not_not.2 haccepted), hheader, if_pos (hcur.trans htot.symm), htot, hpayload]
  rw [hmerge]
  exact ⟨rfl, rfl, load_store_self r.buf 0 payload⟩

/-- A piece that is not the whole message is put behind the pieces before it. -/
theorem merge_piece (hr : r.bytes = mergePacket total payload) (hlt : payload.length < total)
    (htotal : total < 65528) (hacc : s.Holds acc) (hroom : acc.length + payload.length ≤ total) :
    ∃ merged : QmiMsgPacket, merged.Holds (acc ++ payload) ∧
      mergeRsp s r.buf r.bytes.length =
        if payload.length < mergePacketMaxPayloadSize ∨ total ≤ (acc ++ payload).length then
          ⟨0, { merged with len := 0 }, store r.buf 0 (acc ++ payload), (acc ++ payload).length,
            payload.length⟩
        else ⟨-1, merged, r.buf, r.bytes.length, payload.length⟩ := by
  obtain ⟨hlen, hkept⟩ := hacc
  have haccepted := packet_accepted hr (Nat.le_of_lt hlt) htotal
  obtain ⟨hheader, hpayload, -⟩ := packet_in hr
  obtain ⟨-, -, hcur, htot⟩ := @mergeHeader_fields payload.length total (by omega) (by omega)
  have hsum : (s.len + payload.length) % 65536 = (acc ++ payload).length := by
    rw [hlen, List.length_append]
    omega
  have hbuf : load (store s.buf s.len payload) 0 (acc ++ payload).length = acc ++ payload := by
    rw [List.length_append, load_append, hlen, load_store_of_le _ _ (Nat.le_of_eq (Nat.zero_add _)),
      hkept, Nat.zero_add, load_store_self]
  refine ⟨⟨(acc ++ payload).length, store s.buf s.len payload⟩, ⟨rfl, hbuf⟩, ?_⟩
  unfold mergeRsp
  dsimp only
  rw [if_neg (not_not.2 haccepted), hheader, hcur, htot, if_neg (Nat.ne_of_lt hlt), hpayload, hsum,
    hbuf]

end

/-! ### The packets of one message, and of all of them -/

/-- What the calls for the packets of the message `m` return: nothing but with the last of them. -/
def answers (m : List UInt8) (ps : List (List UInt8)) : List (Option (List UInt8)) :=
  List.replicate (ps.length - 1) none ++ [some m]

theorem answers_cons (m p : List UInt8) {ps : List (List UInt8)} (hne : ps ≠ []) :
    answers m (p :: ps) = none :: answers m ps := by
  have hpos := List.length_pos_iff.2 hne
  obtain ⟨k, hk⟩ := Nat.exists_eq_add_one.2 hpos
  rw [answers, answers, List.length_cons, hk, Nat.add_sub_cancel, Nat.add_sub_cancel,
    List.replicate_succ, List.cons_append]

/-- **The packets of a message, or those that are left of it.**  The static buffer holds what has
come before them; with the last packet it is complete and given away. -/
theorem feed_cut {rest : List UInt8} {ps : List (List UInt8)}
    (hcut : Cut mergePacketMaxPayloadSize rest ps) :
    ∀ {s : QmiMsgPacket} {acc : List UInt8} {total : ℕ} {reads : List PacketRead},
      s.Holds acc → acc.length + rest.length = total → total < 65528 →
        reads.map PacketRead.bytes = ps.map (mergePacket total) →
          (feed mergeRsp s reads).1 = answers (acc ++ rest) ps ∧
            (feed mergeRsp s reads).2.len = 0 := by
  induction hcut with
  | @last m hne hlen =>
      intro s acc total reads hacc htotal hlt hreads
      obtain ⟨r, rs, rfl, hr, hnil⟩ := List.map_eq_cons_iff.1 hreads
      obtain rfl := List.map_eq_nil_iff.1 hnil
      cases acc with
      | nil =>
          rw [List.length_nil, Nat.zero_add] at htotal
          subst htotal
          obtain ⟨hret, hlen0, hbuf⟩ := merge_single (s := s) hr hlt
          dsimp only [feed]
          rw [if_pos hret, hbuf]
          exact ⟨rfl, hlen0⟩
      | cons a acc =>
          rw [List.length_cons] at htotal
          obtain ⟨merged, -, hmerge⟩ := merge_piece hr (by omega) hlt hacc
            (by rw [List.length_cons]; omega)
          have hend : total ≤ (a :: acc ++ m).length := by
            rw [List.length_append, List.length_cons]
            omega
          rw [if_pos (Or.inr hend)] at hmerge
          dsimp only [feed]
          rw [hmerge, load_store_self]
          exact ⟨rfl, rfl⟩
  | @more p rest ps hlen hrest ih =>
      intro s acc total reads hacc htotal hlt hreads
      obtain ⟨r, rs, rfl, hr, hrs⟩ := List.map_eq_cons_iff.1 hreads
      have hpos := List.length_pos_iff.2 hrest.ne_nil
      rw [List.length_append] at htotal
      obtain ⟨merged, hmerged, hmerge⟩ := merge_piece hr (by omega) hlt hacc (by omega)
      -- a full piece, and something is left: neither of the two signs of the last packet
      have hnot : ¬ (p.length < mergePacketMaxPayloadSize ∨ total ≤ (acc ++ p).length) := by
        rw [List.length_append]
        omega
      rw [if_neg hnot] at hmerge
      obtain ⟨hanswers, hreset⟩ := ih hmerged (by rw [List.length_append]; omega) hlt hrs
      dsimp only [feed]
      rw [hmerge, answers_cons _ _ hrest.pieces_ne_nil, ← List.append_assoc, ← hanswers]
      exact ⟨rfl, hreset⟩

theorem feed_append (merge : QmiMsgPacket → (ℕ → UInt8) → ℕ → Merged) (s : QmiMsgPacket)
    (reads reads' : List PacketRead) :
    (feed merge s (reads ++ reads')).1 =
      (feed merge s reads).1 ++ (feed merge (feed merge s reads).2 reads').1 := by
  induction reads generalizing s with
  | nil => rfl
  | cons r rs ih =>
      rw [List.cons_append]
      dsimp only [feed]
      rw [ih, List.cons_append]

/-- However messages of 1 to 4096 bytes are sent, one after the other, each in its packets, `merge`
returns -1 for every packet but the last of a message, and for the last one the message. -/
def Reassembles (merge : QmiMsgPacket → (ℕ → UInt8) → ℕ → Merged) : Prop :=
  ∀ (s : QmiMsgPacket) (msgs : List (List UInt8 × List (List UInt8))) (reads : List PacketRead),
    s.len = 0 → (∀ m ∈ msgs, m.1.length ≤ 4096 ∧ Cut mergePacketMaxPayloadSize m.1 m.2) →
      reads.map PacketRead.bytes = msgs.flatMap (fun m => m.2.map (mergePacket m.1.length)) →
        (feed merge s reads).1 = msgs.flatMap fun m => answers m.1 m.2

theorem reassembles_mergeRsp : Reassembles mergeRsp := by
  intro s msgs
  induction msgs generalizing s with
  | nil =>
      intro reads _ _ hreads
      obtain rfl := List.map_eq_nil_iff.1 hreads
      rfl
  | cons m msgs ih =>
      intro reads hs hmsgs hreads
      obtain ⟨hlen, hcut⟩ := hmsgs m List.mem_cons_self
      rw [List.flatMap_cons] at hreads
      obtain ⟨rs, rs', rfl, hfirst, hothers⟩ := List.map_eq_append_iff.1 hreads
      obtain ⟨hanswers, hreset⟩ :=
        feed_cut hcut (QmiMsgPacket.holds_nil hs) (Nat.zero_add _) (by omega) hfirst
      rw [feed_append, hanswers, List.flatMap_cons, List.nil_append]
      congr 1
      exact ih _ _ hreset (fun m' hm' => hmsgs m' (List.mem_cons_of_mem m hm')) hothers

end Qmi

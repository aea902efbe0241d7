/-
**What the length checks of the QRTR proxy are worth.**

`qrtr_proxy_loop` reads into one buffer and checks, before it calls a handler, that the length in
the header gives the number of bytes that were read.  The header may be longer than what was read,
and then it is left over from an earlier message; the length of a packet is a number of 32 bits, to
which the size of the header is added; and the result is compared as an `int`.

* `QrtrProxy.DatagramPasses`, `QrtrProxy.MessagePasses` — the two checks;
* `QrtrProxy.payloadLength` — how much of a client message is sent on;
* `QrtrProxy.DatagramInBounds`, `QrtrProxy.MessageInBounds` — what the checks are for;
* `QrtrProxy.datagramPasses_iff` — the check of a packet, in numbers that do not wrap around, is the
  same for both widths of `size_t`;
* `QrtrProxy.checks_inBounds_iff` — **exactly which lengths pass and are not in bounds**;
* `QrtrProxy.checks_not_inBounds` — a header that says it has 4294967295 bytes behind it.

The host is little-endian.
-/
import OpenwrtPackage.Lib.MachineInt
import OpenwrtPackage.QrtrProxy.HostOrder

set_option relaxedAutoImplicit false
set_option autoImplicit false

namespace QrtrProxy

open Qmi Bytes Memory Host MachineInt

/-! ### The checks -/

/-- The size of `rx_buf`. -/
def rxBufSize : ℕ := 8192

/-- `align_4` of a `size_t`: `& ~3` takes the two lowest bits away. -/
def alignSizeT (w : SizeT) (n : ℕ) : ℕ := w.ofInt (n + 3 : ℕ) / 4 * 4

/-- `le32toh(hdr->size) + sizeof(*hdr)`, as a `size_t` -/
def packetSize (w : SizeT) (rxBuf : ℕ → UInt8) : ℕ :=
  w.ofInt ((hdrIn rxBuf).size.toNat + qrtrHdrSize : ℕ)

/-- `nreads` bytes from the device are handed to `recv_qrtr_from_dev`. -/
def DatagramPasses (w : SizeT) (rxBuf : ℕ → UInt8) (nreads : ℕ) : Prop :=
  int (alignSizeT w (packetSize w rxBuf)) = nreads

instance (w : SizeT) (rxBuf : ℕ → UInt8) (nreads : ℕ) : Decidable (DatagramPasses w rxBuf nreads) :=
  inferInstanceAs (Decidable (_ = _))

/-- The buffer as a message of a client. -/
def messageIn (rxBuf : ℕ → UInt8) : List UInt8 := load rxBuf 0 rxBufSize

/-- `nreads` bytes from a client are handed to `recv_qmi_from_client`. -/
def MessagePasses (rxBuf : ℕ → UInt8) (nreads : ℕ) : Prop := qmiSize (messageIn rxBuf) = nreads

instance (rxBuf : ℕ → UInt8) (nreads : ℕ) : Decidable (MessagePasses rxBuf nreads) :=
  inferInstanceAs (Decidable (_ = _))

/-- `le16toh(pQMI->QMIHdr.Length) + 1 - sizeof(QCQMI_HDR)`, a `size_t` -/
def payloadLength (w : SizeT) (rxBuf : ℕ → UInt8) : ℕ :=
  w.ofInt (qmiSize (messageIn rxBuf) - qcqmiHdrSize : ℤ)

/-! ### What they are for -/

/-- A packet that passes has been read with all that its header announces. -/
def DatagramInBounds (w : SizeT) (rxBuf : ℕ → UInt8) (nreads : ℕ) : Prop :=
  DatagramPasses w rxBuf nreads → qrtrHdrSize + (hdrIn rxBuf).size.toNat ≤ nreads

/-- A message that passes has a header, and what is sent on of it has been read. -/
def MessageInBounds (w : SizeT) (rxBuf : ℕ → UInt8) (nreads : ℕ) : Prop :=
  MessagePasses rxBuf nreads →
    (0 : ℤ) ≤ qmiSize (messageIn rxBuf) - qcqmiHdrSize ∧ payloadLength w rxBuf ≤ nreads

/-- The size of the packet does not fit into 32 bits, and what is left of it is the number of bytes
that were read. -/
def DatagramWraps (rxBuf : ℕ → UInt8) (nreads : ℕ) : Prop :=
  2 ^ 32 ≤ (hdrIn rxBuf).size.toNat + qrtrHdrSize ∧
    nreads = align4 ((hdrIn rxBuf).size.toNat + qrtrHdrSize - 2 ^ 32)

/-- Fewer bytes than a header were read, and the length field says so. -/
def MessageShort (rxBuf : ℕ → UInt8) (nreads : ℕ) : Prop :=
  nreads = qmiSize (messageIn rxBuf) ∧ nreads < qcqmiHdrSize

/-! ### What they are worth -/

section

variable {w : SizeT} {rxBuf : ℕ → UInt8} {nreads : ℕ}

/-- Rounding up, in 32 bits. -/
theorem alignSizeT_mod (w : SizeT) (n : ℕ) : alignSizeT w n % 2 ^ 32 = align4 n % 2 ^ 32 := by
  have hmod := w.ofInt_mod (n + 3)
  unfold alignSizeT align4
  omega

theorem align4_mod {m n : ℕ} (h : m % 2 ^ 32 = n % 2 ^ 32) :
    align4 m % 2 ^ 32 = align4 n % 2 ^ 32 := by
  unfold align4
  omega

theorem datagramPasses_iff (hnreads : nreads < 2 ^ 31) :
    DatagramPasses w rxBuf nreads ↔
      align4 ((hdrIn rxBuf).size.toNat + qrtrHdrSize) % 2 ^ 32 = nreads := by
  have hint := @int_eq_iff (alignSizeT w (packetSize w rxBuf)) nreads (by omega) (by omega)
  have hpacket := align4_mod (w.ofInt_mod ((hdrIn rxBuf).size.toNat + qrtrHdrSize))
  rw [DatagramPasses, hint, ← hpacket, ← packetSize, ← alignSizeT_mod w]
  omega

/-- A packet that passes is as long as it says, unless the sum wraps around. -/
theorem datagramInBounds_iff (hpos : 1 ≤ nreads) (hle : nreads ≤ rxBufSize) :
    DatagramInBounds w rxBuf nreads ↔ ¬ DatagramWraps rxBuf nreads := by
  have hsize := (hdrIn rxBuf).size.toNat_lt
  unfold rxBufSize at hle
  unfold DatagramInBounds
  rw [datagramPasses_iff (by omega)]
  unfold DatagramWraps align4 qrtrHdrSize
  omega

/-- A message that passes is as long as it says, unless that is shorter than a header. -/
theorem messageInBounds_iff (hle : nreads ≤ rxBufSize) :
    MessageInBounds w rxBuf nreads ↔ ¬ MessageShort rxBuf nreads := by
  unfold rxBufSize at hle
  unfold MessageInBounds MessagePasses MessageShort
  constructor
  · rintro hall ⟨hpasses, hshort⟩
    have hheader := (hall hpasses.symm).1
    omega
  · intro hlong hpasses
    have hheader : qcqmiHdrSize ≤ nreads := by
      by_contra hshort
      exact hlong ⟨hpasses.symm, Nat.not_le.1 hshort⟩
    have hsub : ((qmiSize (messageIn rxBuf) : ℤ) - qcqmiHdrSize) =
        (nreads - qcqmiHdrSize : ℕ) := by
      rw [hpasses]
      omega
    have hmodulus := w.modulus_ge
    rw [payloadLength, hsub, w.ofInt_of_lt (by omega)]
    omega

end

/-- **The checks keep the handlers in bounds, except for packets whose size wraps around and for
messages shorter than a header**, for both widths of `size_t` and whatever is left in the buffer. -/
theorem checks_inBounds_iff (w : SizeT) (rxBuf : ℕ → UInt8) {nreads : ℕ} (hpos : 1 ≤ nreads)
    (hle : nreads ≤ rxBufSize) :
    (DatagramInBounds w rxBuf nreads ↔ ¬ DatagramWraps rxBuf nreads) ∧
      (MessageInBounds w rxBuf nreads ↔ ¬ MessageShort rxBuf nreads) :=
  ⟨datagramInBounds_iff hpos hle, messageInBounds_iff hle⟩

/-- A data packet that is nothing but a header, with this size in it. -/
def bareHeader (size : UInt32) : ℕ → UInt8 :=
  store (fun _ => 0) 0 (Packet.bytes ⟨⟨qrtrProtoVer1, qrtrTypeData, 3, 9, 0, size, 1, 1⟩, []⟩)

/-- A header that announces 8 bytes is not 32 bytes long. -/
theorem checks_inBounds_bareHeader :
    1 ≤ 32 ∧ 32 ≤ rxBufSize ∧
      (DatagramInBounds .bits64 (bareHeader 8) 32 ↔ ¬ DatagramWraps (bareHeader 8) 32) ∧
      (MessageInBounds .bits64 (bareHeader 8) 32 ↔ ¬ MessageShort (bareHeader 8) 32) :=
  ⟨by decide, by decide, checks_inBounds_iff .bits64 (bareHeader 8) (by decide) (by decide)⟩

/-- The sum of `0xffffffff` and 32, rounded up, is 32 in an `int`. -/
theorem checks_not_inBounds : ¬ ∀ (w : SizeT) (rxBuf : ℕ → UInt8) (nreads : ℕ), 1 ≤ nreads →
    nreads ≤ rxBufSize → DatagramInBounds w rxBuf nreads ∧ MessageInBounds w rxBuf nreads := by
  intro hall
  have hin := (hall .bits64 (bareHeader 0xffffffff) 32 (by decide) (by decide)).1
  exact absurd (hin (by decide +kernel)) (by decide +kernel)

end QrtrProxy

/-
**QMUX messages.**

The messages of the services other than control: behind the six bytes of `QCQMI_HDR` stand
`QCQMUX_HDR` (bytes 6 to 8), `QCQMUX_MSG_HDR` (bytes 9 to 12) and a list of TLVs, each a type of one
byte, a length of two bytes and a value.  A response starts with the TLV of its result.

* `Qmi.qmuxMsgHdrLength`, `Qmi.qmuxResult`, `Qmi.qmuxError` — the fields;
* `Qmi.getTLV` — `GetTLV`, which walks over the TLVs;
* `Qmi.tlvType`, `Qmi.tlvLength`, `Qmi.bytesAt` — what stands at the place it returns.
-/
import OpenwrtPackage.Qmi.Message

set_option relaxedAutoImplicit false
set_option autoImplicit false

namespace Qmi

open Bytes

/-! ### Constants -/

def qmuxTypeWds : UInt8 := 0x01

def usbCtlMsgTypeQmi : UInt8 := 0x01

def qmuxCtlFlagSingleMsg : UInt8 := 0x00

def qmuxCtlFlagTypeCmd : UInt8 := 0x00

/-- `QMUX_CTL_FLAG_TYPE_RSP` -/
def qmuxCtlFlagTypeRsp : UInt8 := 0x02

/-- `sizeof(QCQMUX_HDR)` -/
def qcqmuxHdrSize : ℕ := 3

/-- `sizeof(QCQMUX_MSG_HDR)` -/
def qcqmuxMsgHdrSize : ℕ := 4

/-- `sizeof(QMI_TLV_HDR)` -/
def qmiTlvHdrSize : ℕ := 3

/-- The place of the first TLV in a message. -/
def firstTLV : ℕ := qcqmiHdrSize + qcqmuxHdrSize + qcqmuxMsgHdrSize

/-! ### Fields -/

/-- `MUXMsg.QMUXHdr.CtlFlags` -/
def qmuxCtlFlags (m : List UInt8) : UInt8 := byteAt m 6

/-- `MUXMsg.QMUXHdr.TransactionId` -/
def qmuxTransactionId (m : List UInt8) : ℕ := le16At m 7

/-- `MUXMsg.QMUXMsgHdr.Length`: the size of the TLVs. -/
def qmuxMsgHdrLength (m : List UInt8) : ℕ := le16At m 11

/-- `MUXMsg.QMUXMsgHdrResp.QMUXResult` -/
def qmuxResult (m : List UInt8) : ℕ := le16At m 16

/-- `MUXMsg.QMUXMsgHdrResp.QMUXError` -/
def qmuxError (m : List UInt8) : ℕ := le16At m 18

/-! ### TLVs -/

/-- `pTLVHdr->TLVType` -/
def tlvType (m : List UInt8) (pTLVHdr : ℕ) : UInt8 := byteAt m pTLVHdr

/-- `pTLVHdr->TLVLength` -/
def tlvLength (m : List UInt8) (pTLVHdr : ℕ) : ℕ := le16At m (pTLVHdr + 1)

/-- The `n` bytes at `p`. -/
def bytesAt (m : List UInt8) (p n : ℕ) : List UInt8 := (List.range n).map fun i => byteAt m (p + i)

/-- The loop of `GetTLV`.  `length` is its counter of 16 bits, `tlvFind` the number of TLVs seen. -/
def getTLVLoop (m : List UInt8) (type : ℕ) : ℕ → ℕ → ℕ → ℕ → Option ℕ
  | 0, _, _, _ => none
  | fuel + 1, tlvFind, length, pTLVHdr =>
      if length < qmiTlvHdrSize then none
      else if 0x1000 < type ∧ tlvFind + 1 + 0x1000 = type then some pTLVHdr
      else if type ≤ 0x1000 ∧ (tlvType m pTLVHdr).toNat = type then some pTLVHdr
      else
        getTLVLoop m type fuel (tlvFind + 1)
          ((length + 65536 * 2 - (tlvLength m pTLVHdr + qmiTlvHdrSize)) % 65536)
          (pTLVHdr + tlvLength m pTLVHdr + qmiTlvHdrSize)

/-- `GetTLV`: the place of the first TLV of this type, or, above `0x1000`, of the TLV with this
number.  Bytes behind the message read as zero; a round takes at least three bytes off the message
or, behind it, off the counter, so that the number of rounds is never too small. -/
def getTLV (m : List UInt8) (type : ℕ) : Option ℕ :=
  getTLVLoop m type (65536 + m.length) 0 (qmuxMsgHdrLength m) firstTLV

end Qmi

/-
**QMI messages as bytes.**

The packed structures of `MPQMI.h` and `MPQCTL.h` that the proxies overlay on their buffers: the
header `QCQMI_HDR` (bytes 0 to 5) and, behind it, the control message `QMICTL_MSG`.  Every field is
read at its offset; 16-bit fields are little-endian.

* `Qmi.qmiHdrLength`, `Qmi.qmiHdrQmiType`, `Qmi.qmiHdrClientId` — the header;
* `Qmi.qmiSize` — the size of a message by its own length field;
* `Qmi.ctlFlags`, `Qmi.qmictlType` and the fields of `QMICTL_GET_CLIENT_ID_RESP_MSG` and
  `QMICTL_RELEASE_CLIENT_ID_RESP_MSG`, which share one layout;
* `Qmi.WellFormed` — a message that is as long as its length field says.
-/
import OpenwrtPackage.Lib.Bytes

set_option relaxedAutoImplicit false
set_option autoImplicit false

namespace Qmi

open Bytes

/-! ### Constants -/

def qmuxTypeCtl : UInt8 := 0x00

def qmictlCtlFlagRsp : UInt8 := 0x01

def qmictlCtlFlagInd : UInt8 := 0x02

def qmictlGetVersionReq : ℕ := 0x0021

def qmictlGetClientIdReq : ℕ := 0x0022

def qmictlGetClientIdResp : ℕ := 0x0022

def qmictlReleaseClientIdReq : ℕ := 0x0023

def qmictlReleaseClientIdResp : ℕ := 0x0023

def qmictlRevokeClientIdInd : ℕ := 0x0024

def qmictlSyncReq : ℕ := 0x0027

def qmiResultFailure : ℕ := 1

def qmiErrInternal : ℕ := 3

/-- `sizeof(QCQMI_HDR)`. -/
def qcqmiHdrSize : ℕ := 6

/-- `sizeof(qmi_buf)`, the largest message either side handles. -/
def qmiBufSize : ℕ := 4096

/-! ### The header -/

/-- `QMIHdr.Length`: the size of the message but for its first byte. -/
def qmiHdrLength (m : List UInt8) : ℕ := le16At m 1

def qmiHdrQmiType (m : List UInt8) : UInt8 := byteAt m 4

def qmiHdrClientId (m : List UInt8) : UInt8 := byteAt m 5

/-- `le16toh(pQMI->QMIHdr.Length) + 1`, the size every read and write goes by. -/
def qmiSize (m : List UInt8) : ℕ := qmiHdrLength m + 1

/-! ### The control message -/

/-- `CTLMsg.QMICTLMsgHdr.CtlFlags`. -/
def ctlFlags (m : List UInt8) : UInt8 := byteAt m 6

/-- `CTLMsg.QMICTLMsgHdr.QMICTLType`. -/
def qmictlType (m : List UInt8) : ℕ := le16At m 8

/-- `CTLMsg.QMICTLMsgHdr.TransactionId`. -/
def ctlTransactionId (m : List UInt8) : UInt8 := byteAt m 7

/-- `QMIType` of a `GetClientIdReq` or `ReleaseClientIdReq`. -/
def reqQmiType (m : List UInt8) : UInt8 := byteAt m 15

/-- `ClientId` of a `ReleaseClientIdReq`. -/
def reqClientId (m : List UInt8) : UInt8 := byteAt m 16

/-- `QMIResult` of a response with a result TLV. -/
def rspQmiResult (m : List UInt8) : ℕ := le16At m 15

/-- `QMIError` of a response with a result TLV. -/
def rspQmiError (m : List UInt8) : ℕ := le16At m 17

/-- `QMIType` of a `GetClientIdRsp` or `ReleaseClientIdRsp`. -/
def rspQmiType (m : List UInt8) : UInt8 := byteAt m 22

/-- `ClientId` of a `GetClientIdRsp` or `ReleaseClientIdRsp`. -/
def rspClientId (m : List UInt8) : UInt8 := byteAt m 23

/-! ### Messages written out -/

/-- A `QMICTL_GET_CLIENT_ID_REQ` for the service `qmiType`. -/
def getClientIdReq (transactionId qmiType : UInt8) : List UInt8 :=
  [0x01, 15, 0, 0x00, qmuxTypeCtl, 0, 0x00, transactionId, 0x22, 0, 4, 0, 0x01, 1, 0, qmiType]

/-- The `QMICTL_GET_CLIENT_ID_RESP` that grants `clientId` of the service `qmiType`. -/
def getClientIdResp (transactionId qmiType clientId : UInt8) : List UInt8 :=
  [0x01, 23, 0, 0x80, qmuxTypeCtl, 0, qmictlCtlFlagRsp, transactionId, 0x22, 0, 12, 0,
    0x02, 4, 0, 0, 0, 0, 0, 0x01, 2, 0, qmiType, clientId]

/-- The `QMICTL_REVOKE_CLIENT_ID_IND` that takes `clientId` of the service `qmiType` back. -/
def revokeClientIdInd (qmiType clientId : UInt8) : List UInt8 :=
  [0x01, 16, 0, 0x80, qmuxTypeCtl, 0, qmictlCtlFlagInd, 0, 0x24, 0, 5, 0, 0x01, 2, 0, qmiType,
    clientId]

/-! ### Well-formed messages -/

/-- A message with a whole header whose length field gives its size, and which fits the buffer. -/
def WellFormed (m : List UInt8) : Prop :=
  qcqmiHdrSize ≤ m.length ∧ m.length ≤ qmiBufSize ∧ m.length = qmiSize m

instance (m : List UInt8) : Decidable (WellFormed m) :=
  inferInstanceAs (Decidable (_ ∧ _ ∧ _))

/-- Cutting a buffer at the size its length field gives keeps the length field. -/
theorem qmiSize_take {m : List UInt8} {n : ℕ} (h : qcqmiHdrSize ≤ n) :
    qmiSize (m.take n) = qmiSize m := by
  have hn : 1 + 1 < n := by
    simp only [qcqmiHdrSize] at h
    omega
  rw [qmiSize, qmiSize, qmiHdrLength, qmiHdrLength, le16At_take hn]

theorem qmiHdrQmiType_take {m : List UInt8} {n : ℕ} (h : qcqmiHdrSize ≤ n) :
    qmiHdrQmiType (m.take n) = qmiHdrQmiType m := by
  have hn : 4 < n := by
    simp only [qcqmiHdrSize] at h
    omega
  rw [qmiHdrQmiType, qmiHdrQmiType, byteAt_take hn]

end Qmi

/-
**Requests to the modem.**

The functions of `QMIThread.c` that set a data call up, look after it and take it down.  Each sends
one request, waits for the answer, and returns 0, a negative number when the request could not be
sent, or the error that the modem gives.  What the request says is left out here; what comes back is
an argument.

* `QuectelCM.Answer` — what `QmiThreadSendQMI` leaves in `err` and `pResponse`;
* `QuectelCM.qmiRspCheck` — `qmi_rsp_check_and_return`;
* `QuectelCM.requestQueryDataCall`, `QuectelCM.requestSetupDataCall`,
  `QuectelCM.requestDeactivateDefaultPDP`, `QuectelCM.requestGetIPAddress`.

A function returns its result and the new values of the variables it writes.
-/
import OpenwrtPackage.Qmi.Qmux
import OpenwrtPackage.QuectelCM.Profile

set_option relaxedAutoImplicit false
set_option autoImplicit false

namespace QuectelCM

open Qmi Bytes

/-! ### Answers -/

/-- What has come of a request. -/
inductive Answer where
  /-- `pResponse` is `NULL`: the request could not be sent, or nobody has answered -/
  | failed (err : ℤ)
  /-- `err` is 0 and `*pResponse` is the message `m` -/
  | response (m : List UInt8)
  deriving DecidableEq

/-- `qmi_rsp_check_and_return`: the response, or what the function returns instead.  That can be 0:
when there is no response although `err` is 0, and when the modem gives a result but no error. -/
def qmiRspCheck : Answer → Except ℤ (List UInt8)
  | .failed err => .error err
  | .response m =>
      if qmuxResult m ≠ 0 ∨ qmuxError m ≠ 0 then .error (qmuxError m) else .ok m

/-! ### The state of a data call -/

def qwdsPktDataUnknow : UInt8 := 0x00

def qwdsPktDataDisconnected : UInt8 := 0x01

def qwdsPktDataConnected : UInt8 := 0x02

/-- What a response of `QMIWDS_GET_PKT_SRVC_STATUS` says: the status in its TLV `0x01`, and
disconnected when there is none or when the call has to be set up again. -/
def pktSrvcStatus (m : List UInt8) : UInt8 :=
  match getTLV m 0x01 with
  | some pPktSrvc =>
      if tlvLength m pPktSrvc = 2 ∧ byteAt m (pPktSrvc + 4) = 0x01 then qwdsPktDataDisconnected
      else byteAt m (pPktSrvc + 3)
  | none => qwdsPktDataDisconnected

/-- `requestQueryDataCall`: the result, `*pConnectionStatus`, and the handle of the call. -/
def requestQueryDataCall (a : Answer) (status : UInt8) (handle : UInt32) : ℤ × UInt8 × UInt32 :=
  match qmiRspCheck a with
  | .error err => (err, status, handle)
  | .ok m =>
      (0, pktSrvcStatus m,
        if pktSrvcStatus m = qwdsPktDataDisconnected then 0 else handle)

/-- `requestSetupDataCall`: the result, and the handle of the call when there is one. -/
def requestSetupDataCall (a : Answer) : ℤ × Option UInt32 :=
  match qmiRspCheck a with
  | .error err => (err, none)
  | .ok m => (0, some (le32At m 23))

/-- `requestDeactivateDefaultPDP`: the result and the handle.  The request is sent when there is a
handle. -/
def requestDeactivateDefaultPDP (a : Answer) (handle : UInt32) : ℤ × UInt32 :=
  if handle = 0 then (0, handle)
  else
    match qmiRspCheck a with
    | .error err => (err, handle)
    | .ok _ => (0, 0)

/-! ### The addresses -/

/-- A number of four bytes in the TLV of this type. -/
def tlvUlong (m : List UInt8) (type : ℕ) (old : UInt32) : UInt32 :=
  match getTLV m type with
  | some p => le32At m (p + 3)
  | none => old

/-- A `QMIWDS_GET_RUNTIME_SETTINGS_TLV_IPV6_ADDR`: the address and its prefix length. -/
def tlvIpv6Addr (m : List UInt8) (type : ℕ) (old : List UInt8 × UInt8) : List UInt8 × UInt8 :=
  match getTLV m type with
  | some p => (bytesAt m (p + 3) 16, byteAt m (p + 19))
  | none => old

/-- What a response of `QMIWDS_GET_RUNTIME_SETTINGS` says about IPv4. -/
def runtimeIpv4 (m : List UInt8) (pIpv4 : Ipv4) : Ipv4 :=
  { pIpv4 with
    dnsPrimary := tlvUlong m 0x15 pIpv4.dnsPrimary
    dnsSecondary := tlvUlong m 0x16 pIpv4.dnsSecondary
    gateway := tlvUlong m 0x20 pIpv4.gateway
    subnetMask := tlvUlong m 0x21 pIpv4.subnetMask
    address := tlvUlong m 0x1E pIpv4.address }

/-- What it says about IPv6. -/
def runtimeIpv6 (m : List UInt8) (pIpv6 : Ipv6) : Ipv6 :=
  let gateway := tlvIpv6Addr m 0x26 (pIpv6.gateway, pIpv6.prefixLengthGateway)
  let address := tlvIpv6Addr m 0x25 (pIpv6.address, pIpv6.prefixLengthIPAddr)
  { pIpv6 with
    dnsPrimary := (tlvIpv6Addr m 0x27 (pIpv6.dnsPrimary, 0)).1
    dnsSecondary := (tlvIpv6Addr m 0x28 (pIpv6.dnsSecondary, 0)).1
    gateway := gateway.1
    prefixLengthGateway := gateway.2
    address := address.1
    prefixLengthIPAddr := address.2 }

/-- The settings of the family `f` are cleared before the request. -/
def clearAddress (p : Profile) : IpFamily → Profile
  | .v4 => { p with ipv4 := .zero }
  | .v6 => { p with ipv6 := .zero }

/-- The response is copied into the profile; the MTU goes to the family `f`. -/
def setAddress (p : Profile) (f : IpFamily) (m : List UInt8) : Profile :=
  let ipv4 := runtimeIpv4 m p.ipv4
  let ipv6 := runtimeIpv6 m p.ipv6
  match f with
  | .v4 => { p with ipv4 := { ipv4 with mtu := tlvUlong m 0x29 ipv4.mtu }, ipv6 := ipv6 }
  | .v6 => { p with ipv4 := ipv4, ipv6 := { ipv6 with mtu := tlvUlong m 0x29 ipv6.mtu } }

/-- `requestGetIPAddress`: the result and the profile.  Without a handle nothing is asked, and the
result is 0. -/
def requestGetIPAddress (a : Answer) (f : IpFamily) (handle : UInt32) (p : Profile) : ℤ × Profile :=
  if handle = 0 then (0, clearAddress p f)
  else
    match qmiRspCheck a with
    | .error err => (err, clearAddress p f)
    | .ok m => (0, setAddress (clearAddress p f) f m)

end QuectelCM

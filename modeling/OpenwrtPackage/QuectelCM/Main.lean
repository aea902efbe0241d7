/-
**The main loop of quectel-CM.**

`qmi_main` dials, looks every fifteen seconds whether the call is still up, and dials again when it
is not.  It reacts to signals that it sends itself (start, check, stop) and to events of the thread
that reads from the modem.  This module is a translation of the loop with the request functions for
QMI.  A handler takes the state, the answers that the modem gives to the requests it may send and
what the clock shows, and returns the new state and what it does, in order.

* `QuectelCM.Cm` — the variables of `qmi_main`, with `s_link` and the handles of the calls;
* `QuectelCM.sigEventStart`, `QuectelCM.sigEventCheck`, `QuectelCM.sigEventStop` — the signals;
* `QuectelCM.handle` — one turn of the loop;
* `QuectelCM.step` — the state after it;
* `QuectelCM.Touches` — what the part for one family leaves alone;
* `QuectelCM.About` — its actions are about the calls of that family.

Signal strength, cells and the registration are asked for at some places; of these only the new
value of `PSAttachedState` is kept, as an argument.  `unsigned long` has `w` bits.
-/
import Mathlib.Algebra.Group.Nat.Defs
import Mathlib.Logic.Function.Basic
import OpenwrtPackage.QuectelCM.Requests

set_option relaxedAutoImplicit false
set_option autoImplicit false

namespace QuectelCM

/-! ### The state -/

/-- The argument of `usbnet_link_change`: the bits `IpFamilyV4` and `IpFamilyV6`. -/
structure Link where
  v4 : Bool
  v6 : Bool
  deriving DecidableEq

def Link.down : Link := ⟨false, false⟩

/-- The variables of `qmi_main`. -/
structure Cm where
  profile : Profile
  psAttachedState : UInt8
  /-- `IPv4ConnectionStatus` and `IPv6ConnectionStatus` -/
  connectionStatus : IpFamily → UInt8
  setupCallFail : UInt32
  setupCallAllowTime : ℕ
  /-- `WdsConnectionIPv4Handle` and `WdsConnectionIPv6Handle` -/
  wdsConnectionHandle : IpFamily → UInt32
  /-- `s_link`, which is −1 at first -/
  sLink : Option Link
  /-- `__main_quit` has not been reached -/
  running : Bool

/-- What the loop does to the outside. -/
inductive Action where
  /-- `alarm(seconds)` -/
  | alarm (seconds : ℕ)
  /-- `QMIWDS_START_NETWORK_INTERFACE`, and the handle that the modem gives -/
  | startNetwork (f : IpFamily) (handle : Option UInt32)
  /-- `QMIWDS_STOP_NETWORK_INTERFACE` for the call with this handle -/
  | stopNetwork (f : IpFamily) (handle : UInt32)
  /-- `QMIWDS_GET_PKT_SRVC_STATUS`, and the status that the modem reports in its TLV `0x01` -/
  | pktSrvcStatus (f : IpFamily) (report : Option UInt8)
  /-- `usbnet_link_change(link, profile)`; `profile->ipv4.Address` is `address` -/
  | usbnetLinkChange (link : Link) (address : UInt32)
  /-- `udhcpc_start(profile)` -/
  | udhcpcStart
  /-- `udhcpc_stop(profile)` -/
  | udhcpcStop
  /-- `send_signo_to_main(SIG_EVENT_START)` -/
  | sendStart
  /-- `send_signo_to_main(SIG_EVENT_CHECK)` -/
  | sendCheck
  /-- `main_send_event_to_qmidevice(RIL_REQUEST_QUIT)` -/
  | sendQuit
  deriving DecidableEq

def Cm.setStatus (s : Cm) (f : IpFamily) (status : UInt8) : Cm :=
  { s with connectionStatus := Function.update s.connectionStatus f status }

def Cm.setHandle (s : Cm) (f : IpFamily) (handle : UInt32) : Cm :=
  { s with wdsConnectionHandle := Function.update s.wdsConnectionHandle f handle }

def Cm.setProfile (s : Cm) (profile : Profile) : Cm := { s with profile := profile }

def Cm.setAuth (s : Cm) (auth : ℤ) : Cm := s.setProfile { s.profile with auth := auth }

/-- `clock_msec()`, when the monotonic clock shows `t` milliseconds. -/
def clockMsec (w t : ℕ) : ℕ := t % 2 ^ w

/-! ### Requests on the state -/

/-- `requestQueryDataCall(&IPvxConnectionStatus, f)` -/
def queryDataCall (s : Cm) (f : IpFamily) (a : Answer) : ℤ × Cm × List Action :=
  let r := requestQueryDataCall a (s.connectionStatus f) (s.wdsConnectionHandle f)
  let report := match qmiRspCheck a with
    | .error _ => none
    | .ok m => (Qmi.getTLV m 0x01).map fun pPktSrvc => Bytes.byteAt m (pPktSrvc + 3)
  (r.1, (s.setStatus f r.2.1).setHandle f r.2.2, [.pktSrvcStatus f report])

/-- `requestSetupDataCall(profile, f)` -/
def setupDataCall (s : Cm) (f : IpFamily) (a : Answer) : ℤ × Cm × List Action :=
  let r := requestSetupDataCall a
  let s' := s.setProfile { s.profile with curIpFamily := f.toInt }
  (r.1,
    match r.2 with
    | some handle => s'.setHandle f handle
    | none => s',
    [.startNetwork f r.2])

/-- `requestDeactivateDefaultPDP(profile, f)` -/
def deactivateDefaultPDP (s : Cm) (f : IpFamily) (a : Answer) : Cm × List Action :=
  (s.setHandle f (requestDeactivateDefaultPDP a (s.wdsConnectionHandle f)).2,
    if s.wdsConnectionHandle f = 0 then [] else [.stopNetwork f (s.wdsConnectionHandle f)])

/-- `requestGetIPAddress(profile, f)` -/
def getIPAddress (s : Cm) (f : IpFamily) (a : Answer) : ℤ × Cm :=
  let r := requestGetIPAddress a f (s.wdsConnectionHandle f) s.profile
  (r.1, s.setProfile r.2)

/-! ### The network interface -/

/-- `usbnet_link_change` -/
def usbnetLinkChange (s : Cm) (link : Link) : Cm × List Action :=
  let call : Action := .usbnetLinkChange link s.profile.ipv4.address
  if s.sLink = some link then (s, [call])
  else
    let p4 := if link.v4 then s.profile else { s.profile with ipv4 := .zero }
    let p6 := if link.v6 then p4 else { p4 with ipv6 := .zero }
    ({ s with sLink := some link, profile := p6 },
      [call, if link = .down then .udhcpcStop else .udhcpcStart])

/-- `check_ipv4_address`: whether the address that the modem has now is the one in the profile,
which it replaces. -/
def checkIpv4Address (s : Cm) (a : Answer) : Bool × Cm :=
  let oldAddress := s.profile.ipv4.address
  let r := getIPAddress s .v4 a
  (r.1 = 0 ∧ r.2.profile.ipv4.address = oldAddress, r.2)

/-! ### `SIG_EVENT_START` -/

/-- The answers to the requests of a start, and the three readings of the clock. -/
structure StartInput where
  setupIpv4 : Answer
  setupIpv4Again : Answer
  addressIpv4 : Answer
  setupIpv6 : Answer
  addressIpv6 : Answer
  compared : ℕ
  subtracted : ℕ
  finished : ℕ

/-- `profile->user && profile->user[0] && profile->password && profile->password[0]` -/
def hasCredentials (p : Profile) : Bool :=
  (p.user.any fun user => user.1 ≠ []) && (p.password.any fun password => password.1 ≠ [])

/-- What follows a setup that has returned `qmierr`. -/
def finishSetup (f : IpFamily) (address : Answer) (r : ℤ × Cm × List Action) : Cm × List Action :=
  if r.1 = 0 then
    let q := getIPAddress r.2.1 f address
    (if q.1 = 0 then q.2.setStatus f qwdsPktDataConnected else q.2, r.2.2)
  else r.2

/-- `(profile->auth == 1) ? 2 : 1` -/
def otherAuth (auth : ℤ) : ℤ := if auth = 1 then 2 else 1

/-- `requestSetupDataCall`, and a second time with the other kind of authentication. -/
def setupIpv4 (s : Cm) (i : StartInput) : ℤ × Cm × List Action :=
  let r := setupDataCall s .v4 i.setupIpv4
  if 0 < r.1 ∧ hasCredentials s.profile then
    let oldAuto := r.2.1.profile.auth
    let q := setupDataCall (r.2.1.setAuth (otherAuth oldAuto)) .v4 i.setupIpv4Again
    (q.1, if q.1 ≠ 0 then q.2.1.setAuth oldAuto else q.2.1, r.2.2 ++ q.2.2)
  else r

/-- `profile->enable_ipvx && IPvxConnectionStatus != QWDS_PKT_DATA_CONNECTED` -/
def Wanted (s : Cm) (f : IpFamily) : Prop :=
  s.profile.enable f = true ∧ s.connectionStatus f ≠ qwdsPktDataConnected

instance (s : Cm) (f : IpFamily) : Decidable (Wanted s f) := inferInstanceAs (Decidable (_ ∧ _))

def startIpv4 (s : Cm) (i : StartInput) : Cm × List Action :=
  if Wanted s .v4 then
    finishSetup .v4 i.addressIpv4 (setupIpv4 s i)
  else (s, [])

def startIpv6 (s : Cm) (i : StartInput) : Cm × List Action :=
  if Wanted s .v6 then
    finishSetup .v6 i.addressIpv6 (setupDataCall s .v6 i.setupIpv6)
  else (s, [])

/-- A family that is enabled has this status. -/
def Cm.anyEnabled (s : Cm) (status : UInt8) : Bool :=
  (s.profile.enableIpv4 && s.connectionStatus .v4 = status) ||
    (s.profile.enableIpv6 && s.connectionStatus .v6 = status)

/-- `IPv4ConnectionStatus == QWDS_PKT_DATA_CONNECTED || IPv6ConnectionStatus == …` -/
def IsConnected (s : Cm) : Prop :=
  s.connectionStatus .v4 = qwdsPktDataConnected ∨ s.connectionStatus .v6 = qwdsPktDataConnected

instance (s : Cm) : Decidable (IsConnected s) := inferInstanceAs (Decidable (_ ∨ _))

/-- `allow_time[SetupCallFail]`, and 60 behind its end. -/
def allowTime (setupCallFail : UInt32) : ℕ := [5, 10, 20, 40, 60].getD setupCallFail.toNat 60

/-- The end of `SIG_EVENT_START`: when a family is not connected, the next start is in a while. -/
def backOff (w : ℕ) (s : Cm) (now : ℕ) : Cm × List Action :=
  if s.anyEnabled qwdsPktDataDisconnected then
    let seconds := allowTime s.setupCallFail
    ({ s with
        setupCallFail := s.setupCallFail + 1
        setupCallAllowTime := (seconds * 1000 + clockMsec w now) % 2 ^ w },
      [.alarm seconds])
  else if IsConnected s then
    ({ s with setupCallFail := 0, setupCallAllowTime := clockMsec w now }, [])
  else (s, [])

/-- `(SetupCallAllowTime - clock_msec()+999)/1000` as the `unsigned` argument of `alarm`. -/
def allowSeconds (w : ℕ) (s : Cm) (now : ℕ) : ℕ :=
  (s.setupCallAllowTime + 2 ^ w - clockMsec w now + 999) % 2 ^ w / 1000 % 2 ^ 32

/-- The first test of `SIG_EVENT_START`. -/
def Cm.detached (s : Cm) : Prop := s.psAttachedState ≠ 1 ∧ s.profile.loopbackState = false

instance (s : Cm) : Decidable s.detached := inferInstanceAs (Decidable (_ ∧ _))

/-- The branch in which it is not yet allowed to dial. -/
def NotYetAllowed (w : ℕ) (s : Cm) (i : StartInput) : Prop :=
  ¬ s.detached ∧ clockMsec w i.compared < s.setupCallAllowTime

instance (w : ℕ) (s : Cm) (i : StartInput) : Decidable (NotYetAllowed w s i) :=
  inferInstanceAs (Decidable (_ ∧ _))

def sigEventStart (w : ℕ) (s : Cm) (i : StartInput) : Cm × List Action :=
  if s.detached then (s, [])
  else if NotYetAllowed w s i then (s, [.alarm (allowSeconds w s i.subtracted)])
  else
    let r4 := startIpv4 s i
    let r6 := startIpv6 r4.1 i
    let r := backOff w r6.1 i.finished
    (r.1, r4.2 ++ r6.2 ++ r.2)

/-! ### `SIG_EVENT_CHECK` -/

/-- The answers to the requests of a check. -/
structure CheckInput where
  psAttachedState : UInt8
  queryIpv4 : Answer
  addressIpv4 : Answer
  checkIpv4 : Answer
  deactivateIpv4 : Answer
  queryIpv6 : Answer

/-- The address is asked for when there is none. -/
def fetchAddress (s : Cm) (a : Answer) : Cm :=
  if s.connectionStatus .v4 = qwdsPktDataConnected ∧ s.profile.ipv4.address = 0 then
    let r := getIPAddress s .v4 a
    if r.1 ≠ 0 then r.2.setStatus .v4 qwdsPktDataDisconnected else r.2
  else s

/-- A call with another address than ours is taken down. -/
def compareAddress (s : Cm) (i : CheckInput) : Cm × List Action :=
  if s.connectionStatus .v4 = qwdsPktDataConnected then
    let r := checkIpv4Address s i.checkIpv4
    if r.1 = false then
      let q := deactivateDefaultPDP r.2 .v4 i.deactivateIpv4
      (q.1.setStatus .v4 qwdsPktDataDisconnected, q.2)
    else (r.2, [])
  else (s, [])

/-- `profile->enable_ipvx && IPvxConnectionStatus != QWDS_PKT_DATA_DISCONNECTED` -/
def Queried (s : Cm) (f : IpFamily) : Prop :=
  s.profile.enable f = true ∧ s.connectionStatus f ≠ qwdsPktDataDisconnected

instance (s : Cm) (f : IpFamily) : Decidable (Queried s f) := inferInstanceAs (Decidable (_ ∧ _))

def checkIpv4 (s : Cm) (i : CheckInput) : Cm × List Action :=
  if Queried s .v4 then
    let q := queryDataCall s .v4 i.queryIpv4
    if q.1 = 0 then
      let r := compareAddress (fetchAddress q.2.1 i.addressIpv4) i
      (r.1, q.2.2 ++ r.2)
    else (q.2.1.setStatus .v4 qwdsPktDataDisconnected, q.2.2)
  else (s.setStatus .v4 qwdsPktDataDisconnected, [])

/-- The result of the query is not looked at. -/
def checkIpv6 (s : Cm) (i : CheckInput) : Cm × List Action :=
  if Queried s .v6 then
    (queryDataCall s .v6 i.queryIpv6).2
  else (s.setStatus .v6 qwdsPktDataDisconnected, [])

/-- The link of the network interface follows the status of the calls. -/
def linkAfterCheck (s : Cm) : Cm × List Action :=
  if s.connectionStatus .v4 = qwdsPktDataDisconnected ∧
      s.connectionStatus .v6 = qwdsPktDataDisconnected then
    usbnetLinkChange s .down
  else if IsConnected s then
    usbnetLinkChange s
      ⟨s.connectionStatus .v4 = qwdsPktDataConnected, s.connectionStatus .v6 = qwdsPktDataConnected⟩
  else (s, [])

/-- `requestRegistrationState(&PSAttachedState)` while it is not 1 -/
def checkRegistration (s : Cm) (i : CheckInput) : Cm :=
  if s.psAttachedState ≠ 1 then { s with psAttachedState := i.psAttachedState } else s

def sigEventCheck (s : Cm) (i : CheckInput) : Cm × List Action :=
  let r4 := checkIpv4 (checkRegistration s i) i
  let r6 := checkIpv6 r4.1 i
  let r := linkAfterCheck r6.1
  (r.1, r4.2 ++ r6.2 ++ r.2 ++ if r.1.anyEnabled qwdsPktDataDisconnected then [.sendStart] else [])

/-! ### `SIG_EVENT_STOP` -/

/-- The answers to the requests of a stop. -/
structure StopInput where
  deactivateIpv4 : Answer
  deactivateIpv6 : Answer

def stopFamily (s : Cm) (f : IpFamily) (a : Answer) : Cm × List Action :=
  if s.profile.enable f = true ∧ s.connectionStatus f = qwdsPktDataConnected then
    deactivateDefaultPDP s f a
  else (s, [])

/-- `__main_quit` -/
def mainQuit (s : Cm) : Cm × List Action :=
  let r := usbnetLinkChange s .down
  ({ r.1 with running := false }, r.2)

def sigEventStop (s : Cm) (i : StopInput) : Cm × List Action :=
  let r4 := stopFamily s .v4 i.deactivateIpv4
  let r6 := stopFamily r4.1 .v6 i.deactivateIpv6
  let r := usbnetLinkChange r6.1 .down
  let q := mainQuit r.1
  (q.1, r4.2 ++ r6.2 ++ r.2 ++ [.sendQuit] ++ q.2)

/-! ### The loop -/

/-- What can arrive at the loop. -/
inductive Event where
  /-- `SIG_EVENT_START` -/
  | start (i : StartInput)
  /-- `SIG_EVENT_CHECK` -/
  | check (i : CheckInput)
  /-- `SIG_EVENT_STOP` -/
  | stop (i : StopInput)
  /-- `RIL_INDICATE_DEVICE_DISCONNECTED` -/
  | deviceDisconnected
  /-- `RIL_UNSOL_RESPONSE_VOICE_NETWORK_STATE_CHANGED` -/
  | voiceNetworkStateChanged (psAttachedState : UInt8) (now : ℕ)
  /-- `RIL_UNSOL_DATA_CALL_LIST_CHANGED` -/
  | dataCallListChanged (now : ℕ)
  /-- `MODEM_REPORT_RESET_EVENT` -/
  | modemReportReset
  /-- `RIL_UNSOL_LOOPBACK_CONFIG_IND` -/
  | loopbackConfigInd (loopbackState : Bool)
  /-- `poll` reports `POLLHUP` for one of the two sockets -/
  | hangup

def voiceNetworkStateChanged (w : ℕ) (s : Cm) (psAttachedState : UInt8) (now : ℕ) :
    Cm × List Action :=
  let s' := { s with psAttachedState := psAttachedState }
  if psAttachedState = 1 then
    (s', if s.anyEnabled qwdsPktDataDisconnected then [.sendStart] else [])
  else ({ s' with setupCallAllowTime := clockMsec w now }, [])

def dataCallListChanged (w : ℕ) (s : Cm) (now : ℕ) : Cm × List Action :=
  (if IsConnected s then { s with setupCallAllowTime := (clockMsec w now + 1000) % 2 ^ w } else s,
    [.sendCheck])

/-- One event; a signal takes the alarm back. -/
def handle (w : ℕ) (s : Cm) : Event → Cm × List Action
  | .start i => ((sigEventStart w s i).1, .alarm 0 :: (sigEventStart w s i).2)
  | .check i => ((sigEventCheck s i).1, .alarm 0 :: (sigEventCheck s i).2)
  | .stop i => ((sigEventStop s i).1, .alarm 0 :: (sigEventStop s i).2)
  | .deviceDisconnected =>
      let r := usbnetLinkChange s .down
      let q := mainQuit r.1
      (q.1, r.2 ++ q.2)
  | .voiceNetworkStateChanged psAttachedState now =>
      voiceNetworkStateChanged w s psAttachedState now
  | .dataCallListChanged now => dataCallListChanged w s now
  | .modemReportReset =>
      let q := mainQuit s
      (q.1, .sendQuit :: q.2)
  | .loopbackConfigInd loopbackState =>
      (s.setProfile { s.profile with loopbackState := loopbackState },
        if loopbackState then [.sendStart] else [])
  | .hangup =>
      let q := mainQuit s
      (q.1, .sendQuit :: q.2)

/-- The loop takes an event. -/
def step (w : ℕ) (s : Cm) (e : Event) : Option Cm :=
  if s.running then some (handle w s e).1 else none

/-- The loop is entered at the time `now`.  `s_link` and the handles keep the values that they have
from an earlier round of `qmi_main`. -/
def start (w : ℕ) (profile : Profile) (psAttachedState : UInt8) (sLink : Option Link)
    (wdsConnectionHandle : IpFamily → UInt32) (now : ℕ) : Cm where
  profile := profile
  psAttachedState := psAttachedState
  connectionStatus := fun _ => qwdsPktDataUnknow
  setupCallFail := 0
  setupCallAllowTime := clockMsec w now
  wdsConnectionHandle := wdsConnectionHandle
  sLink := sLink
  running := true

/-! ### Small facts -/

section

variable (s : Cm) (f : IpFamily)

@[simp] theorem setStatus_self (status : UInt8) :
    (s.setStatus f status).connectionStatus f = status := by
  simp [Cm.setStatus]

@[simp] theorem setStatus_of_ne {g : IpFamily} (h : g ≠ f) (status : UInt8) :
    (s.setStatus f status).connectionStatus g = s.connectionStatus g := by
  simp [Cm.setStatus, h]

@[simp] theorem setStatus_handle (status : UInt8) :
    (s.setStatus f status).wdsConnectionHandle = s.wdsConnectionHandle := rfl

@[simp] theorem setHandle_self (handle : UInt32) :
    (s.setHandle f handle).wdsConnectionHandle f = handle := by
  simp [Cm.setHandle]

@[simp] theorem setHandle_of_ne {g : IpFamily} (h : g ≠ f) (handle : UInt32) :
    (s.setHandle f handle).wdsConnectionHandle g = s.wdsConnectionHandle g := by
  simp [Cm.setHandle, h]

@[simp] theorem setHandle_status (handle : UInt32) :
    (s.setHandle f handle).connectionStatus = s.connectionStatus := rfl

@[simp] theorem setAuth_status (auth : ℤ) :
    (s.setAuth auth).connectionStatus = s.connectionStatus := rfl

end

/-- What the loop makes of an event. -/
theorem step_eq {w : ℕ} {s t : Cm} {e : Event} (h : step w s e = some t) :
    s.running = true ∧ t = (handle w s e).1 := by
  obtain ⟨hrunning, ht⟩ := Option.ite_none_right_eq_some.1 h
  exact ⟨hrunning, (Option.some.inj ht).symm⟩

/-! ### Frames -/

/-- `t` differs from `s` in the status and the handle of the family `f` and in the profile, where
the families that are asked for and the loopback state are the same. -/
structure Touches (f : IpFamily) (s t : Cm) : Prop where
  status : ∀ g, g ≠ f → t.connectionStatus g = s.connectionStatus g
  handle : ∀ g, g ≠ f → t.wdsConnectionHandle g = s.wdsConnectionHandle g
  enable : ∀ g, t.profile.enable g = s.profile.enable g
  allowTime : t.setupCallAllowTime = s.setupCallAllowTime
  running : t.running = s.running

namespace Touches

variable {f : IpFamily} {s t u : Cm}

theorem refl (f : IpFamily) (s : Cm) : Touches f s s :=
  ⟨fun _ _ => rfl, fun _ _ => rfl, fun _ => rfl, rfl, rfl⟩

theorem trans (h : Touches f s t) (h' : Touches f t u) : Touches f s u where
  status g hg := (h'.status g hg).trans (h.status g hg)
  handle g hg := (h'.handle g hg).trans (h.handle g hg)
  enable g := (h'.enable g).trans (h.enable g)
  allowTime := h'.allowTime.trans h.allowTime
  running := h'.running.trans h.running

theorem setStatus (s : Cm) (status : UInt8) : Touches f s (s.setStatus f status) :=
  ⟨fun _ hg => setStatus_of_ne s f hg status, fun _ _ => rfl, fun _ => rfl, rfl, rfl⟩

theorem setHandle (s : Cm) (handle : UInt32) : Touches f s (s.setHandle f handle) :=
  ⟨fun _ _ => rfl, fun _ hg => setHandle_of_ne s f hg handle, fun _ => rfl, rfl, rfl⟩

theorem setProfile (s : Cm) {p : Profile} (h : ∀ g, p.enable g = s.profile.enable g) :
    Touches f s (s.setProfile p) :=
  ⟨fun _ _ => rfl, fun _ _ => rfl, h, rfl, rfl⟩

theorem setAuth (s : Cm) (auth : ℤ) : Touches f s (s.setAuth auth) :=
  setProfile s fun g => by cases g <;> rfl

end Touches

/-- The addresses have no part in what is asked for. -/
theorem enable_addresses (p : Profile) (ipv4 : Ipv4) (ipv6 : Ipv6) (g : IpFamily) :
    ({ p with ipv4 := ipv4, ipv6 := ipv6 } : Profile).enable g = p.enable g := by
  cases g <;> rfl

theorem requestGetIPAddress_enable (a : Answer) (f : IpFamily) (handle : UInt32) (p : Profile)
    (g : IpFamily) : (requestGetIPAddress a f handle p).2.enable g = p.enable g := by
  have hclear : (clearAddress p f).enable g = p.enable g := by
    cases f <;> exact enable_addresses p _ _ g
  unfold requestGetIPAddress
  split
  · exact hclear
  · split
    · exact hclear
    · refine Eq.trans ?_ hclear
      cases f <;> exact enable_addresses _ _ _ g

theorem queryDataCall_touches (s : Cm) (f : IpFamily) (a : Answer) :
    Touches f s (queryDataCall s f a).2.1 :=
  (Touches.setStatus s _).trans (Touches.setHandle _ _)

theorem setupDataCall_touches (s : Cm) (f : IpFamily) (a : Answer) :
    Touches f s (setupDataCall s f a).2.1 := by
  have hprofile : Touches f s (s.setProfile { s.profile with curIpFamily := f.toInt }) :=
    Touches.setProfile s fun g => by cases g <;> rfl
  unfold setupDataCall
  dsimp only
  split
  · exact hprofile.trans (Touches.setHandle _ _)
  · exact hprofile

theorem deactivateDefaultPDP_touches (s : Cm) (f : IpFamily) (a : Answer) :
    Touches f s (deactivateDefaultPDP s f a).1 := Touches.setHandle s _

theorem getIPAddress_touches (s : Cm) (f g : IpFamily) (a : Answer) :
    Touches g s (getIPAddress s f a).2 :=
  Touches.setProfile s fun g => requestGetIPAddress_enable a f _ _ g

theorem finishSetup_touches {s : Cm} {f : IpFamily} {r : ℤ × Cm × List Action}
    (h : Touches f s r.2.1) (address : Answer) : Touches f s (finishSetup f address r).1 := by
  unfold finishSetup
  split
  · have hget := h.trans (getIPAddress_touches r.2.1 f f address)
    dsimp only
    split
    · exact hget.trans (Touches.setStatus _ _)
    · exact hget
  · exact h

theorem setupIpv4_touches (s : Cm) (i : StartInput) : Touches .v4 s (setupIpv4 s i).2.1 := by
  have hfirst := setupDataCall_touches s .v4 i.setupIpv4
  unfold setupIpv4
  dsimp only
  split
  · have hagain : ∀ auth, Touches .v4 s
        (setupDataCall ((setupDataCall s .v4 i.setupIpv4).2.1.setAuth auth) .v4
          i.setupIpv4Again).2.1 := fun auth =>
      (hfirst.trans (Touches.setAuth _ auth)).trans (setupDataCall_touches _ .v4 _)
    split
    · exact (hagain _).trans (Touches.setAuth _ _)
    · exact hagain _
  · exact hfirst

theorem startIpv4_touches (s : Cm) (i : StartInput) : Touches .v4 s (startIpv4 s i).1 := by
  unfold startIpv4
  split
  · exact finishSetup_touches (setupIpv4_touches s i) _
  · exact Touches.refl _ _

theorem startIpv6_touches (s : Cm) (i : StartInput) : Touches .v6 s (startIpv6 s i).1 := by
  unfold startIpv6
  split
  · exact finishSetup_touches (setupDataCall_touches s .v6 i.setupIpv6) _
  · exact Touches.refl _ _

theorem fetchAddress_touches (s : Cm) (a : Answer) : Touches .v4 s (fetchAddress s a) := by
  unfold fetchAddress
  split
  · have hget := getIPAddress_touches s .v4 .v4 a
    dsimp only
    split
    · exact hget.trans (Touches.setStatus _ _)
    · exact hget
  · exact Touches.refl _ _

theorem compareAddress_touches (s : Cm) (i : CheckInput) :
    Touches .v4 s (compareAddress s i).1 := by
  unfold compareAddress
  split
  · have hget := getIPAddress_touches s .v4 .v4 i.checkIpv4
    dsimp only
    split
    · exact (hget.trans (deactivateDefaultPDP_touches _ .v4 _)).trans (Touches.setStatus _ _)
    · exact hget
  · exact Touches.refl _ _

theorem checkIpv4_touches (s : Cm) (i : CheckInput) : Touches .v4 s (checkIpv4 s i).1 := by
  unfold checkIpv4
  split
  · have hquery := queryDataCall_touches s .v4 i.queryIpv4
    dsimp only
    split
    · exact (hquery.trans (fetchAddress_touches _ _)).trans (compareAddress_touches _ _)
    · exact hquery.trans (Touches.setStatus _ _)
  · exact Touches.setStatus _ _

theorem checkIpv6_touches (s : Cm) (i : CheckInput) : Touches .v6 s (checkIpv6 s i).1 := by
  unfold checkIpv6
  split
  · exact queryDataCall_touches s .v6 i.queryIpv6
  · exact Touches.setStatus _ _

theorem checkRegistration_touches (s : Cm) (i : CheckInput) (f : IpFamily) :
    Touches f s (checkRegistration s i) := by
  unfold checkRegistration
  split
  · exact ⟨fun _ _ => rfl, fun _ _ => rfl, fun _ => rfl, rfl, rfl⟩
  · exact Touches.refl _ _

theorem stopFamily_touches (s : Cm) (f : IpFamily) (a : Answer) :
    Touches f s (stopFamily s f a).1 := by
  unfold stopFamily
  split
  · exact deactivateDefaultPDP_touches s f a
  · exact Touches.refl _ _

/-- The link of the interface has no part in the calls. -/
theorem usbnetLinkChange_touches (s : Cm) (link : Link) (f : IpFamily) :
    Touches f s (usbnetLinkChange s link).1 := by
  unfold usbnetLinkChange
  dsimp only
  split
  · exact Touches.refl _ _
  · refine ⟨fun _ _ => rfl, fun _ _ => rfl, fun g => ?_, rfl, rfl⟩
    cases g <;> cases link.v4 <;> cases link.v6 <;> rfl

@[simp] theorem usbnetLinkChange_status (s : Cm) (link : Link) :
    (usbnetLinkChange s link).1.connectionStatus = s.connectionStatus := by
  unfold usbnetLinkChange
  dsimp only
  split <;> rfl

/-! ### Actions -/

/-- The family whose calls an action is about. -/
def Action.family : Action → Option IpFamily
  | .startNetwork f _ => some f
  | .stopNetwork f _ => some f
  | .pktSrvcStatus f _ => some f
  | _ => none

/-- The actions are about the calls of the family `f`. -/
def About (f : IpFamily) (acts : List Action) : Prop := ∀ a ∈ acts, a.family = some f

section

variable {f : IpFamily} {acts acts' : List Action}

theorem about_nil (f : IpFamily) : About f [] := by simp [About]

theorem about_singleton {a : Action} (h : a.family = some f) : About f [a] := by
  simp [About, h]

theorem About.append (h : About f acts) (h' : About f acts') : About f (acts ++ acts') :=
  fun a ha => (List.mem_append.1 ha).elim (h a) (h' a)

/-- What is about calls does not touch the link. -/
theorem About.not_mem_link (h : About f acts) (link : Link) (address : UInt32) :
    .usbnetLinkChange link address ∉ acts := by
  intro hmem
  simpa [Action.family] using h _ hmem

end

theorem setupDataCall_about (s : Cm) (f : IpFamily) (a : Answer) :
    About f (setupDataCall s f a).2.2 := about_singleton rfl

theorem queryDataCall_about (s : Cm) (f : IpFamily) (a : Answer) :
    About f (queryDataCall s f a).2.2 := about_singleton rfl

theorem deactivateDefaultPDP_about (s : Cm) (f : IpFamily) (a : Answer) :
    About f (deactivateDefaultPDP s f a).2 := by
  unfold deactivateDefaultPDP
  dsimp only
  split
  · exact about_nil f
  · exact about_singleton rfl

theorem finishSetup_actions (f : IpFamily) (address : Answer) (r : ℤ × Cm × List Action) :
    (finishSetup f address r).2 = r.2.2 := by
  unfold finishSetup
  split <;> rfl

theorem startIpv4_about (s : Cm) (i : StartInput) : About .v4 (startIpv4 s i).2 := by
  unfold startIpv4
  split
  · rw [finishSetup_actions]
    unfold setupIpv4
    dsimp only
    split
    · exact (setupDataCall_about _ _ _).append (setupDataCall_about _ _ _)
    · exact setupDataCall_about _ _ _
  · exact about_nil _

theorem startIpv6_about (s : Cm) (i : StartInput) : About .v6 (startIpv6 s i).2 := by
  unfold startIpv6
  split
  · rw [finishSetup_actions]
    exact setupDataCall_about _ _ _
  · exact about_nil _

theorem compareAddress_about (s : Cm) (i : CheckInput) : About .v4 (compareAddress s i).2 := by
  unfold compareAddress
  split
  · dsimp only
    split
    · exact deactivateDefaultPDP_about _ .v4 i.deactivateIpv4
    · exact about_nil _
  · exact about_nil _

theorem checkIpv4_about (s : Cm) (i : CheckInput) : About .v4 (checkIpv4 s i).2 := by
  unfold checkIpv4
  split
  · dsimp only
    split
    · exact (queryDataCall_about s .v4 i.queryIpv4).append (compareAddress_about _ i)
    · exact queryDataCall_about s .v4 i.queryIpv4
  · exact about_nil _

theorem checkIpv6_about (s : Cm) (i : CheckInput) : About .v6 (checkIpv6 s i).2 := by
  unfold checkIpv6
  split
  · exact queryDataCall_about _ _ _
  · exact about_nil _

theorem stopFamily_about (s : Cm) (f : IpFamily) (a : Answer) : About f (stopFamily s f a).2 := by
  unfold stopFamily
  split
  · exact deactivateDefaultPDP_about _ _ _
  · exact about_nil _

/-! ### An input without answers -/

/-- A check that nobody answers. -/
def silentCheck : CheckInput :=
  ⟨1, .failed 110, .failed 110, .failed 110, .failed 110, .failed 110⟩

end QuectelCM

/-
**Services over QRTR.**

On a system on chip, quectel-CM talks to the modem over sockets of the QRTR bus.  A control socket
says which services there are; for each service that it needs the reader thread opens a socket, and
when all of them are there it tells the main thread so.

* `QuectelCM.Qrtr.handleCtrlPkt`, `QuectelCM.Qrtr.handleAllocClient`, `QuectelCM.Qrtr.qmiSend`,
  `QuectelCM.Qrtr.qmiTypeOf` — the functions of the thread;
* `QuectelCM.Qrtr.Opened` — what a packet does to the sockets, with
  `QuectelCM.Qrtr.opened_handleAllocClient`;
* `QuectelCM.Qrtr.Sockets` — different services have different sockets;
* `QuectelCM.Qrtr.qmiTypeOf_answer` — **the answer to a request is handed on under the type of the
  request**, whatever has come on the control socket in between;
* `QuectelCM.Qrtr.run_events` — **the main thread is told once, at the first packet with which all
  services are there**.
-/
import Mathlib.Data.List.Infix
import Mathlib.Logic.Function.Basic
import Mathlib.Data.List.Range

set_option relaxedAutoImplicit false
set_option autoImplicit false

namespace QuectelCM.Qrtr

/-! ### The functions -/

/-- `QrtrService`; `version` and `instance` are not read by anyone. -/
structure QrtrService where
  service : UInt32
  node : UInt32
  port : UInt32
  deriving DecidableEq

def QrtrService.zero : QrtrService := ⟨0, 0, 0⟩

/-- `struct qrtr_ctrl_pkt`, with the port that it comes from. -/
structure CtrlPkt where
  cmd : UInt32
  service : UInt32
  node : UInt32
  port : UInt32
  sqPort : UInt32

/-- `QRTR_PORT_CTRL` -/
def portCtrl : UInt32 := 0xfffffffe

/-- `QRTR_TYPE_NEW_SERVER` -/
def newServer : UInt32 := 4

/-- `QRTR_TYPE_DEL_SERVER` -/
def delServer : UInt32 := 5

/-- `QMUX_TYPE_WDS` -/
def wds : ℕ := 0x01

/-- `QMUX_TYPE_DMS` -/
def dms : ℕ := 0x02

/-- `QMUX_TYPE_NAS` -/
def nas : ℕ := 0x03

/-- `QMUX_TYPE_UIM` -/
def uim : ℕ := 0x0B

/-- `QMUX_TYPE_WDS_IPV6` -/
def wdsIpv6 : ℕ := 0x11

/-- `QMUX_TYPE_WDS_ADMIN` -/
def wdsAdmin : ℕ := 0x1A

/-- `QRTR_MAX` -/
def qrtrMax : ℕ := 27

/-- What is sent to the main thread. -/
inductive DeviceEvent where
  /-- `RIL_INDICATE_DEVICE_CONNECTED` -/
  | connected
  /-- `RIL_INDICATE_DEVICE_DISCONNECTED` -/
  | disconnected
  deriving DecidableEq

/-- The static variables, `profile->wda_client`, and what has been sent to the main thread. -/
structure Thread where
  serviceList : ℕ → QrtrService
  qmiclientId : ℕ → ℤ
  wdaClient : ℤ
  report : Bool
  events : List DeviceEvent

def Thread.start : Thread := ⟨fun _ => .zero, fun _ => 0, 0, false, []⟩

/-- `handle_server_change` -/
def handleServerChange (nodeModem : UInt32) (s : Thread) (pkt : CtrlPkt) : Thread :=
  if pkt.node ≠ nodeModem then s
  else if pkt.cmd = newServer then
    if pkt.service.toNat < qrtrMax then
      { s with
        serviceList :=
          Function.update s.serviceList pkt.service.toNat ⟨pkt.service, pkt.node, pkt.port⟩ }
    else s
  else if pkt.cmd = delServer then
    if pkt.service.toNat < qrtrMax then
      { s with serviceList := Function.update s.serviceList pkt.service.toNat .zero }
    else s
  else s

/-- `handle_ctrl_pkt` -/
def handleCtrlPkt (nodeModem : UInt32) (s : Thread) (pkt : CtrlPkt) : Thread :=
  if pkt.sqPort ≠ portCtrl then s
  else if pkt.cmd = newServer ∨ pkt.cmd = delServer then handleServerChange nodeModem s pkt
  else s

/-- `get_client`, where `sock` is what `qrtr_socket` returns; `ENODEV` is 19. -/
def getClient (s : Thread) (qmiType : ℕ) (sock : ℤ) : ℤ :=
  if (s.serviceList qmiType).service = 0 then -19 else if sock = -1 then 0 else sock

/-- `qmiclientId[qmiType] = client` -/
def Thread.setClient (s : Thread) (qmiType : ℕ) (client : ℤ) : Thread :=
  { s with qmiclientId := Function.update s.qmiclientId qmiType client }

@[simp] theorem setClient_self (s : Thread) (i : ℕ) (client : ℤ) :
    (s.setClient i client).qmiclientId i = client := by
  simp [Thread.setClient]

theorem setClient_of_ne {i j : ℕ} (h : j ≠ i) (s : Thread) (client : ℤ) :
    (s.setClient i client).qmiclientId j = s.qmiclientId j := by
  simp [Thread.setClient, h]

def srvList : List ℕ := [wds, nas, uim, dms, wdsAdmin]

/-- The body of the loop of `handle_alloc_client`; `sock` says what `qrtr_socket` returns for each
type. -/
def allocClient (sock : ℕ → ℤ) (s : Thread) (srv : ℕ) : Thread :=
  if (s.serviceList srv).service = 0 then s
  else if s.qmiclientId srv ≠ 0 then s
  else
    let client := getClient s srv (sock srv)
    let t := s.setClient srv client
    if client = 0 then t
    else if srv = wds then t.setClient wdsIpv6 (getClient t wds (sock wdsIpv6))
    else if srv = wdsAdmin then { t with wdaClient := client }
    else t

/-- `handle_alloc_client` -/
def handleAllocClient (sock : ℕ → ℤ) (s : Thread) : Thread :=
  if s.report then s
  else
    let srvReady := srvList.countP fun srv => (s.serviceList srv).service ≠ 0
    let t := srvList.foldl (allocClient sock) s
    if srvReady = srvList.length then
      { t with
        report := true
        events := t.events ++ [if t.qmiclientId wds ≠ 0 then .connected else .disconnected] }
    else t

/-- A packet on the control socket, and what `qrtr_socket` returns when it is handled. -/
structure Event where
  pkt : CtrlPkt
  sock : ℕ → ℤ

def handle (nodeModem : UInt32) (s : Thread) (e : Event) : Thread :=
  handleAllocClient e.sock (handleCtrlPkt nodeModem s e.pkt)

def run (nodeModem : UInt32) (es : List Event) : Thread := es.foldl (handle nodeModem) .start

/-- `qmi_send`: the socket, and the node and the port that a request of a type goes to. -/
def qmiSend (s : Thread) (qmiType : ℕ) : Option (ℤ × UInt32 × UInt32) :=
  let service := s.serviceList (if qmiType = wdsIpv6 then wds else qmiType)
  let sock := s.qmiclientId qmiType
  if service.service = 0 ∨ sock = 0 then none else some (sock, service.node, service.port)

/-- The `QMIType` that a message gets which has been received on a socket; `old` is what is in the
buffer.  Where the message comes from is looked at behind the assignment, and all that this does is
to go on with the loop. -/
def qmiTypeOf (s : Thread) (fd : ℤ) (sqNode sqPort : UInt32) (old : ℕ) : ℕ :=
  (List.range qrtrMax).foldl
    (fun qmiType i =>
      if s.qmiclientId i = fd then
        if (s.serviceList i).node ≠ sqNode ∨ (s.serviceList i).port ≠ sqPort then i else i
      else qmiType)
    old

/-- `nevents`, with the two sockets that are always there. -/
def nevents (s : Thread) : ℕ := 2 + (List.range qrtrMax).countP fun i => s.qmiclientId i ≠ 0

/-! ### Opening sockets -/

/-- The types that can get a socket. -/
def types : List ℕ := [wds, nas, uim, dms, wdsAdmin, wdsIpv6]

/-- A socket that is open stays as it is, and others are opened. -/
def Opened (sock : ℕ → ℤ) (s t : Thread) : Prop :=
  ∀ i, t.qmiclientId i = s.qmiclientId i ∨
    (i ∈ types ∧ s.qmiclientId i = 0 ∧ t.qmiclientId i = sock i ∧ sock i ≠ -1)

theorem Opened.refl (sock : ℕ → ℤ) (s : Thread) : Opened sock s s := fun _ => Or.inl rfl

theorem Opened.trans {sock : ℕ → ℤ} {s t u : Thread} (hst : Opened sock s t)
    (htu : Opened sock t u) : Opened sock s u := by
  intro i
  rcases hst i with ht | ⟨hi, hs, ht, hne⟩
  · rcases htu i with hu | ⟨hi, ht', hu, hne⟩
    · exact Or.inl (hu.trans ht)
    · exact Or.inr ⟨hi, ht ▸ ht', hu, hne⟩
  · rcases htu i with hu | ⟨-, -, hu, -⟩
    · exact Or.inr ⟨hi, hs, hu.trans ht, hne⟩
    · exact Or.inr ⟨hi, hs, hu, hne⟩

/-- The second socket for calls is opened behind the first one. -/
def Behind (s : Thread) : Prop := s.qmiclientId wds = 0 → s.qmiclientId wdsIpv6 = 0

theorem getClient_of_service {s : Thread} {i : ℕ} (h : (s.serviceList i).service ≠ 0) (sock : ℤ) :
    getClient s i sock = if sock = -1 then 0 else sock :=
  if_neg h

/-- A client that is opened, or could not be. -/
theorem opened_setClient {sock : ℕ → ℤ} {s : Thread} {i : ℕ} (hi : i ∈ types)
    (hs : s.qmiclientId i = 0) :
    Opened sock s (s.setClient i (if sock i = -1 then 0 else sock i)) := by
  intro j
  by_cases hj : j = i
  · subst hj
    rw [setClient_self]
    split
    · exact Or.inl hs.symm
    · next hne => exact Or.inr ⟨hi, hs, rfl, hne⟩
  · exact Or.inl (setClient_of_ne hj s _)

theorem serviceList_allocClient (sock : ℕ → ℤ) (s : Thread) (srv : ℕ) :
    (allocClient sock s srv).serviceList = s.serviceList := by
  unfold allocClient
  dsimp only
  repeat' split
  all_goals rfl

theorem mem_types_of_mem_srvList {srv : ℕ} (h : srv ∈ srvList) : srv ∈ types :=
  List.mem_append_left [wdsIpv6] h

theorem ne_wdsIpv6_of_mem_srvList {srv : ℕ} (h : srv ∈ srvList) : srv ≠ wdsIpv6 := by
  rintro rfl
  revert h
  decide

/-- What the body of the loop does to the clients, when the service is there and has none. -/
theorem clients_allocClient {sock : ℕ → ℤ} {s : Thread} {srv : ℕ}
    (hservice : (s.serviceList srv).service ≠ 0) (hid : s.qmiclientId srv = 0) :
    (allocClient sock s srv).qmiclientId =
      (let client := if sock srv = -1 then 0 else sock srv
       let t := s.setClient srv client
       if client ≠ 0 ∧ srv = wds then
         t.setClient wdsIpv6 (if sock wdsIpv6 = -1 then 0 else sock wdsIpv6)
       else t).qmiclientId := by
  have hclient : ∀ i, getClient (s.setClient srv i) srv (sock wdsIpv6) =
      if sock wdsIpv6 = -1 then 0 else sock wdsIpv6 := fun i => if_neg hservice
  unfold allocClient
  simp only [if_neg hservice, hid, ne_eq, not_true_eq_false, if_false,
    getClient_of_service hservice]
  generalize (if sock srv = -1 then 0 else sock srv) = client
  by_cases hzero : client = 0
  · simp only [hzero, if_true, not_true_eq_false, false_and, if_false]
  · by_cases hwds : srv = wds
    · subst hwds
      simp only [hzero, if_false, if_true, hclient, not_false_eq_true, and_self]
    · simp only [hzero, hwds, if_false, and_false]
      split
      · rfl
      · rfl

/-- **One service of the list.** -/
theorem opened_allocClient {sock : ℕ → ℤ} {s : Thread} {srv : ℕ} (hsrv : srv ∈ srvList)
    (hbehind : Behind s) :
    Opened sock s (allocClient sock s srv) ∧ Behind (allocClient sock s srv) := by
  have htypes := mem_types_of_mem_srvList hsrv
  have hsix := ne_wdsIpv6_of_mem_srvList hsrv
  by_cases hservice : (s.serviceList srv).service = 0
  · have hself : allocClient sock s srv = s := if_pos hservice
    rw [hself]
    exact ⟨Opened.refl sock s, hbehind⟩
  by_cases hid : s.qmiclientId srv = 0
  · have hclients := @clients_allocClient sock s srv hservice hid
    have hfirst := @opened_setClient sock s srv htypes hid
    dsimp only at hclients
    generalize hclient : (if sock srv = -1 then 0 else sock srv) = client at hclients hfirst
    by_cases hwds : client ≠ 0 ∧ srv = wds
    · obtain ⟨hopen, rfl⟩ := hwds
      rw [if_pos ⟨hopen, rfl⟩] at hclients
      have hfree : (s.setClient wds client).qmiclientId wdsIpv6 = 0 := by
        rw [setClient_of_ne (Ne.symm hsix)]
        exact hbehind hid
      have hboth := hfirst.trans (@opened_setClient sock (s.setClient wds client) wdsIpv6
        (by decide) hfree)
      refine ⟨fun i => by rw [hclients]; exact hboth i, fun hnone => ?_⟩
      rw [hclients, setClient_of_ne hsix, setClient_self] at hnone
      exact absurd hnone hopen
    · rw [if_neg hwds] at hclients
      refine ⟨fun i => by rw [hclients]; exact hfirst i, fun hnone => ?_⟩
      rw [hclients] at hnone ⊢
      rw [setClient_of_ne (Ne.symm hsix)]
      by_cases hsrv : srv = wds
      · exact hbehind (hsrv ▸ hid)
      · rw [setClient_of_ne (Ne.symm hsrv)] at hnone
        exact hbehind hnone
  · have hself : allocClient sock s srv = s := (if_neg hservice).trans (if_pos hid)
    rw [hself]
    exact ⟨Opened.refl sock s, hbehind⟩

theorem serviceList_foldl (sock : ℕ → ℤ) (s : Thread) (srvs : List ℕ) :
    (srvs.foldl (allocClient sock) s).serviceList = s.serviceList := by
  induction srvs generalizing s with
  | nil => rfl
  | cons srv srvs ih =>
      rw [List.foldl_cons, ih, serviceList_allocClient]

/-- All services of the list. -/
theorem opened_foldl {sock : ℕ → ℤ} {s : Thread} {srvs : List ℕ} (hsrvs : srvs ⊆ srvList)
    (hbehind : Behind s) :
    Opened sock s (srvs.foldl (allocClient sock) s) ∧
      Behind (srvs.foldl (allocClient sock) s) := by
  induction srvs generalizing s with
  | nil => exact ⟨Opened.refl sock s, hbehind⟩
  | cons srv srvs ih =>
      obtain ⟨hfirst, hbehind'⟩ := @opened_allocClient sock s srv (hsrvs List.mem_cons_self) hbehind
      obtain ⟨hrest, hbehind''⟩ := ih (fun i hi => hsrvs (List.mem_cons_of_mem srv hi)) hbehind'
      exact ⟨hfirst.trans hrest, hbehind''⟩

/-- What is done when the loop is over. -/
theorem handleAllocClient_eq (sock : ℕ → ℤ) {s : Thread} (hreport : s.report = false) :
    handleAllocClient sock s =
      if ∀ srv ∈ srvList, (s.serviceList srv).service ≠ 0 then
        { srvList.foldl (allocClient sock) s with
          report := true
          events := (srvList.foldl (allocClient sock) s).events ++
            [if (srvList.foldl (allocClient sock) s).qmiclientId wds ≠ 0 then .connected
              else .disconnected] }
      else srvList.foldl (allocClient sock) s := by
  have hready : (srvList.countP fun srv => (s.serviceList srv).service ≠ 0) = srvList.length ↔
      ∀ srv ∈ srvList, (s.serviceList srv).service ≠ 0 := by
    rw [List.countP_eq_length]
    simp only [decide_eq_true_eq]
  unfold handleAllocClient
  rw [hreport]
  generalize srvList.foldl (allocClient sock) s = t
  simp only [hready, Bool.false_eq_true, if_false]

/-- **What a packet does to the sockets.** -/
theorem opened_handleAllocClient (sock : ℕ → ℤ) {s : Thread} (hbehind : Behind s) :
    Opened sock s (handleAllocClient sock s) ∧ Behind (handleAllocClient sock s) := by
  cases hreport : s.report with
  | true =>
      have hself : handleAllocClient sock s = s := if_pos hreport
      rw [hself]
      exact ⟨Opened.refl sock s, hbehind⟩
  | false =>
      have hfold := @opened_foldl sock s srvList (List.Subset.refl _) hbehind
      rw [handleAllocClient_eq sock hreport]
      generalize srvList.foldl (allocClient sock) s = t at hfold ⊢
      split
      · exact hfold
      · exact hfold

theorem qmiclientId_handleCtrlPkt (nodeModem : UInt32) (s : Thread) (pkt : CtrlPkt) :
    (handleCtrlPkt nodeModem s pkt).qmiclientId = s.qmiclientId := by
  unfold handleCtrlPkt handleServerChange
  repeat' split
  all_goals rfl

/-! ### Different sockets -/

/-- `qrtr_socket` fails, or returns a descriptor that is not open yet. -/
def Fresh (s : Thread) (sock : ℕ → ℤ) : Prop :=
  ∀ i, sock i = -1 ∨ (0 < sock i ∧ (∀ j, s.qmiclientId j ≠ sock i) ∧ ∀ j, sock j = sock i → j = i)

/-- Different services have different sockets. -/
structure Sockets (s : Thread) : Prop where
  distinct : ∀ i j, s.qmiclientId i ≠ 0 → s.qmiclientId j = s.qmiclientId i → j = i
  types : ∀ i, s.qmiclientId i ≠ 0 → i ∈ types
  behind : Behind s

theorem Sockets.start : Sockets .start where
  distinct _ _ h := absurd rfl h
  types _ h := absurd rfl h
  behind _ := rfl

variable {nodeModem : UInt32}

theorem behind_handleCtrlPkt {s : Thread} (h : Behind s) (pkt : CtrlPkt) :
    Behind (handleCtrlPkt nodeModem s pkt) := by
  rw [Behind, qmiclientId_handleCtrlPkt]
  exact h

/-- What an event does to the sockets. -/
theorem opened_handle {s : Thread} (h : Behind s) (e : Event) :
    Opened e.sock s (handle nodeModem s e) ∧ Behind (handle nodeModem s e) := by
  have hboth := opened_handleAllocClient e.sock (@behind_handleCtrlPkt nodeModem s h e.pkt)
  rw [Opened, qmiclientId_handleCtrlPkt] at hboth
  rw [handle, Opened]
  exact hboth

/-- **The step**: different services keep different sockets. -/
theorem Sockets.handle {s : Thread} (h : Sockets s) {e : Event} (hfresh : Fresh s e.sock) :
    Sockets (handle nodeModem s e) := by
  obtain ⟨hopened, hbehind⟩ := @opened_handle nodeModem s h.behind e
  refine ⟨fun i j hi hij => ?_, fun i hi => ?_, hbehind⟩
  · rcases hopened i with hi' | ⟨-, -, hi', hne⟩
    · rw [hi'] at hi hij
      rcases hopened j with hj' | ⟨-, -, hj', hne⟩
      · exact h.distinct i j hi (hj'.symm.trans hij)
      · -- the new socket of `j` is not the old one of `i`
        obtain ⟨-, hunused, -⟩ := (hfresh j).resolve_left hne
        exact absurd (hij.symm.trans hj') (hunused i)
    · obtain ⟨-, hunused, honce⟩ := (hfresh i).resolve_left hne
      rw [hi'] at hij
      rcases hopened j with hj' | ⟨-, -, hj', -⟩
      · exact absurd (hj'.symm.trans hij) (hunused j)
      · exact honce j (hj'.symm.trans hij)
  · rcases hopened i with hi' | ⟨htypes, -⟩
    · exact h.types i (hi' ▸ hi)
    · exact htypes

/-- In a run, each socket is fresh when it is opened. -/
def Answered (nodeModem : UInt32) (es : List Event) : Prop :=
  ∀ fs e, fs ++ [e] <+: es → Fresh (run nodeModem fs) e.sock

theorem run_concat (es : List Event) (e : Event) :
    run nodeModem (es ++ [e]) = handle nodeModem (run nodeModem es) e := by
  simp only [run, List.foldl_append, List.foldl_cons, List.foldl_nil]

theorem sockets_run {es : List Event} (h : Answered nodeModem es) : Sockets (run nodeModem es) := by
  induction es using List.reverseRecOn with
  | nil => exact Sockets.start
  | append_singleton es e ih =>
      rw [run_concat]
      refine (ih fun fs d hd => h fs d ?_).handle (h es e (List.prefix_refl _))
      exact hd.trans (List.prefix_append es [e])

theorem behind_run (es : List Event) : Behind (run nodeModem es) := by
  induction es using List.reverseRecOn with
  | nil => exact fun _ => rfl
  | append_singleton es e ih =>
      rw [run_concat]
      exact (opened_handle ih e).2

/-- A socket that is open stays open. -/
theorem kept_run {es : List Event} {i : ℕ} (hi : (run nodeModem es).qmiclientId i ≠ 0)
    (fs : List Event) :
    (run nodeModem (es ++ fs)).qmiclientId i = (run nodeModem es).qmiclientId i := by
  induction fs using List.reverseRecOn with
  | nil => rw [List.append_nil]
  | append_singleton fs e ih =>
      rw [← List.append_assoc, run_concat]
      rcases (@opened_handle nodeModem _ (behind_run (es ++ fs)) e).1 i with hsame | ⟨-, hzero, -⟩
      · exact hsame.trans ih
      · exact absurd (ih.symm.trans hzero) hi

/-- A loop that looks for the one index. -/
theorem foldl_range_eq {p : ℕ → Prop} [DecidablePred p] {i : ℕ} (h : ∀ j, p j ↔ j = i)
    (old n : ℕ) :
    (List.range n).foldl (fun acc j => if p j then j else acc) old = if i < n then i else old := by
  induction n with
  | zero => rfl
  | succ n ih =>
      rw [List.range_succ, List.foldl_append, ih, List.foldl_cons, List.foldl_nil]
      by_cases hn : p n
      · have heq := (h n).1 hn
        rw [if_pos hn, if_pos (by omega), heq]
      · have hne : n ≠ i := fun heq => hn ((h n).2 heq)
        rw [if_neg hn]
        by_cases hi : i < n
        · rw [if_pos hi, if_pos (by omega)]
        · rw [if_neg hi, if_neg (by omega)]

theorem lt_qrtrMax_of_mem_types {i : ℕ} (h : i ∈ types) : i < qrtrMax := by
  revert i
  decide

/-- A message gets the type of the socket that it comes from. -/
theorem Sockets.qmiTypeOf {s : Thread} (h : Sockets s) {i : ℕ} (hi : s.qmiclientId i ≠ 0)
    (sqNode sqPort : UInt32) (old : ℕ) :
    qmiTypeOf s (s.qmiclientId i) sqNode sqPort old = i := by
  have honly : ∀ j, s.qmiclientId j = s.qmiclientId i ↔ j = i := fun j =>
    ⟨h.distinct i j hi, fun heq => heq ▸ rfl⟩
  rw [Qrtr.qmiTypeOf]
  simp only [ite_self]
  rw [foldl_range_eq honly, if_pos (lt_qrtrMax_of_mem_types (h.types i hi))]

/-- `pollfds` has room for 16. -/
theorem Sockets.nevents_le {s : Thread} (h : Sockets s) : nevents s ≤ 8 := by
  have hsub : ((List.range qrtrMax).filter fun i => s.qmiclientId i ≠ 0) ⊆ Qrtr.types := by
    intro i hi
    exact h.types i (of_decide_eq_true (List.mem_filter.1 hi).2)
  have hnodup : ((List.range qrtrMax).filter fun i => s.qmiclientId i ≠ 0).Nodup :=
    List.nodup_range.filter _
  have hle := List.Nodup.length_le_of_subset hnodup hsub
  rw [nevents, List.countP_eq_length_filter]
  exact Nat.add_le_add_left hle 2

/-- A request goes out over an open socket. -/
theorem clientId_of_qmiSend {s : Thread} {qmiType : ℕ} {fd : ℤ} {node port : UInt32}
    (h : qmiSend s qmiType = some (fd, node, port)) :
    s.qmiclientId qmiType = fd ∧ s.qmiclientId qmiType ≠ 0 := by
  rw [qmiSend] at h
  generalize s.serviceList (if qmiType = wdsIpv6 then wds else qmiType) = service at h
  by_cases hready : service.service = 0 ∨ s.qmiclientId qmiType = 0
  · rw [if_pos hready] at h
    cases h
  · rw [if_neg hready] at h
    exact ⟨congrArg Prod.fst (Option.some.inj h), fun hzero => hready (Or.inr hzero)⟩

/-- **The answer to a request is handed on under the type of the request**, whatever has come on the
control socket in between, and whoever sends it. -/
theorem qmiTypeOf_answer {es fs : List Event} (h : Answered nodeModem (es ++ fs)) {qmiType : ℕ}
    {fd : ℤ} {node port : UInt32}
    (hsend : qmiSend (run nodeModem es) qmiType = some (fd, node, port))
    (sqNode sqPort : UInt32) (old : ℕ) :
    qmiTypeOf (run nodeModem (es ++ fs)) fd sqNode sqPort old = qmiType ∧
      nevents (run nodeModem (es ++ fs)) ≤ 8 := by
  have hsockets := sockets_run h
  obtain ⟨hfd, hopen⟩ := clientId_of_qmiSend hsend
  have hkept := kept_run hopen fs
  rw [← hkept] at hfd hopen
  rw [← hfd]
  exact ⟨hsockets.qmiTypeOf hopen sqNode sqPort old, hsockets.nevents_le⟩

/-- A service of the modem appears on a port, and gets one socket. -/
def appears (service port : UInt32) (qmiType : ℕ) (fd : ℤ) : Event :=
  ⟨⟨newServer, service, 3, port, portCtrl⟩, fun i => if i = qmiType then fd else -1⟩

/-- The answer of the service for calls, behind another service that has appeared. -/
theorem qmiTypeOf_answer_wds :
    qmiTypeOf (run 3 ([appears 1 10 wds 5] ++ [appears 3 11 nas 6])) 5 3 10 0 = wds ∧
      nevents (run 3 ([appears 1 10 wds 5] ++ [appears 3 11 nas 6])) ≤ 8 := by
  have hfresh : ∀ (s : Thread) (k : ℕ) (fd : ℤ), 0 < fd → (∀ j, s.qmiclientId j ≠ fd) →
      Fresh s fun i => if i = k then fd else -1 := by
    intro s k fd hpos hunused i
    by_cases hi : i = k
    · refine Or.inr ⟨by simpa [hi] using hpos, by simpa [hi] using hunused, ?_⟩
      intro j hj
      by_cases hjk : j = k
      · exact hjk.trans hi.symm
      · simp only [hi, hjk, if_true, if_false] at hj
        omega
    · exact Or.inl (if_neg hi)
  have hsend : qmiSend (run 3 [appears 1 10 wds 5]) wds = some (5, 3, 10) := by decide
  refine qmiTypeOf_answer ?_ hsend 3 10 0
  intro fs e hprefix
  rcases fs with _ | ⟨d, _ | ⟨d', fs⟩⟩
  · obtain ⟨rfl, -⟩ := List.cons_prefix_cons.1 hprefix
    have hzero : (0 : ℤ) ≠ 5 := by decide
    exact hfresh _ wds 5 (by decide) fun _ => hzero
  · obtain ⟨hfirst, htail⟩ := List.cons_prefix_cons.1 hprefix
    obtain ⟨hsecond, -⟩ := List.cons_prefix_cons.1 htail
    subst hfirst hsecond
    refine hfresh _ nas 6 (by decide) fun j => ?_
    have hrun := @run_concat 3 [] (appears 1 10 wds 5)
    rw [List.nil_append] at hrun
    rw [hrun]
    rcases (@opened_handle 3 _ (behind_run []) (appears 1 10 wds 5)).1 j with hj | ⟨-, -, hj, -⟩
    · have hzero : (0 : ℤ) ≠ 6 := by decide
      rw [hj]
      exact hzero
    · have hsock : ∀ j, (if j = wds then (5 : ℤ) else -1) ≠ 6 := by
        intro j
        split
        · decide
        · decide
      exact fun heq => hsock j (hj.symm.trans heq)
  · have hle := hprefix.length_le
    simp only [List.length_append, List.length_cons, List.length_nil] at hle
    omega

/-! ### What the main thread is told -/

/-- What a packet says about a service of the modem, if anything. -/
def CtrlPkt.about (nodeModem : UInt32) (pkt : CtrlPkt) (i : ℕ) : Option QrtrService :=
  if pkt.sqPort = portCtrl ∧ pkt.node = nodeModem ∧ pkt.service.toNat = i ∧ i < qrtrMax then
    if pkt.cmd = newServer then some ⟨pkt.service, pkt.node, pkt.port⟩
    else if pkt.cmd = delServer then some .zero
    else none
  else none

/-- What the last packet about a service says. -/
def announced (nodeModem : UInt32) (es : List Event) (i : ℕ) : QrtrService :=
  es.foldl (fun last e => (e.pkt.about nodeModem i).getD last) .zero

/-- All services that are needed are there. -/
def Ready (nodeModem : UInt32) (es : List Event) : Prop :=
  ∀ srv ∈ srvList, (announced nodeModem es srv).service ≠ 0

instance (es : List Event) : Decidable (Ready nodeModem es) :=
  inferInstanceAs (Decidable (∀ srv ∈ srvList, _))

/-- With the last packet a socket for calls could be opened. -/
def opensWds (nodeModem : UInt32) (es : List Event) : Bool :=
  match es.getLast? with
  | none => false
  | some e =>
      (announced nodeModem es wds).service ≠ 0 && e.sock wds ≠ -1 && e.sock wds ≠ 0

/-- What should be told: at the first packet with which all services are there, whether one of the
packets up to there has found a socket for calls. -/
def told (nodeModem : UInt32) (es : List Event) : List DeviceEvent :=
  match es.inits.find? fun fs => Ready nodeModem fs with
  | none => []
  | some fs => [if fs.inits.any (opensWds nodeModem) then .connected else .disconnected]

theorem announced_concat (es : List Event) (e : Event) (i : ℕ) :
    announced nodeModem (es ++ [e]) i =
      (e.pkt.about nodeModem i).getD (announced nodeModem es i) := by
  simp only [announced, List.foldl_append, List.foldl_cons, List.foldl_nil]

/-- A packet changes the service that it is about. -/
theorem serviceList_handleCtrlPkt (s : Thread) (pkt : CtrlPkt) (i : ℕ) :
    (handleCtrlPkt nodeModem s pkt).serviceList i =
      (pkt.about nodeModem i).getD (s.serviceList i) := by
  have hput : ∀ service : QrtrService,
      (if pkt.service.toNat < qrtrMax then
        { s with serviceList := Function.update s.serviceList pkt.service.toNat service }
        else s).serviceList i =
          if pkt.service.toNat = i ∧ i < qrtrMax then service else s.serviceList i := by
    intro service
    by_cases hi : pkt.service.toNat = i
    · subst hi
      by_cases hlt : pkt.service.toNat < qrtrMax
      · simp only [hlt, if_true, and_self, Function.update_self]
      · simp only [hlt, if_false, and_false]
    · simp only [hi, false_and, if_false]
      split
      · exact Function.update_of_ne (Ne.symm hi) _ _
      · rfl
  unfold handleCtrlPkt handleServerChange CtrlPkt.about
  by_cases hport : pkt.sqPort = portCtrl
  · by_cases hnode : pkt.node = nodeModem
    · simp only [hport, hnode, ne_eq, not_true_eq_false, if_false, true_and]
      by_cases hnew : pkt.cmd = newServer
      · simp only [hnew, true_or, if_true, hput]
        split
        · rfl
        · rfl
      · by_cases hdel : pkt.cmd = delServer
        · have hne : delServer ≠ newServer := by decide
          simp only [hdel, or_true, if_true, hne, if_false, hput]
          split
          · rfl
          · rfl
        · simp only [hnew, hdel, or_self, if_false, ite_self]
          rfl
    · simp only [hnode, ne_eq, not_false_eq_true, if_true, false_and, and_false, if_false, ite_self]
      rfl
  · simp only [hport, ne_eq, not_false_eq_true, if_true, false_and, if_false]
    rfl

theorem serviceList_handleAllocClient (sock : ℕ → ℤ) (s : Thread) :
    (handleAllocClient sock s).serviceList = s.serviceList := by
  cases hreport : s.report with
  | true => exact congrArg Thread.serviceList (if_pos hreport)
  | false =>
      have hfold := serviceList_foldl sock s srvList
      rw [handleAllocClient_eq sock hreport]
      generalize srvList.foldl (allocClient sock) s = t at hfold ⊢
      split
      · exact hfold
      · exact hfold

/-- **The table says what the last packets have said.** -/
theorem serviceList_run (es : List Event) (i : ℕ) :
    (run nodeModem es).serviceList i = announced nodeModem es i := by
  induction es using List.reverseRecOn with
  | nil => rfl
  | append_singleton es e ih =>
      rw [run_concat, handle, serviceList_handleAllocClient, serviceList_handleCtrlPkt, ih,
        announced_concat]

/-- The other services do not touch the socket for calls. -/
theorem wds_allocClient_of_ne {srv : ℕ} (hsrv : srv ≠ wds) (sock : ℕ → ℤ) (s : Thread) :
    (allocClient sock s srv).qmiclientId wds = s.qmiclientId wds := by
  by_cases hservice : (s.serviceList srv).service = 0
  · exact congrArg (fun t : Thread => t.qmiclientId wds) (if_pos hservice)
  by_cases hid : s.qmiclientId srv = 0
  · rw [clients_allocClient hservice hid]
    dsimp only
    rw [if_neg fun h => hsrv h.2, setClient_of_ne (Ne.symm hsrv)]
  · exact congrArg (fun t : Thread => t.qmiclientId wds) ((if_neg hservice).trans (if_pos hid))

theorem wds_foldl_of_ne {srvs : List ℕ} (hsrvs : wds ∉ srvs) (sock : ℕ → ℤ) (s : Thread) :
    (srvs.foldl (allocClient sock) s).qmiclientId wds = s.qmiclientId wds := by
  induction srvs generalizing s with
  | nil => rfl
  | cons srv srvs ih =>
      obtain ⟨hne, hrest⟩ := List.ne_and_not_mem_of_not_mem_cons hsrvs
      rw [List.foldl_cons, ih hrest, wds_allocClient_of_ne (Ne.symm hne)]

/-- The socket for calls is open when it was, or when it can be opened now. -/
theorem wds_foldl (sock : ℕ → ℤ) (s : Thread) :
    (srvList.foldl (allocClient sock) s).qmiclientId wds ≠ 0 ↔
      s.qmiclientId wds ≠ 0 ∨
        ((s.serviceList wds).service ≠ 0 ∧ sock wds ≠ -1 ∧ sock wds ≠ 0) := by
  have hlist : srvList = wds :: [nas, uim, dms, wdsAdmin] := rfl
  rw [hlist, List.foldl_cons, wds_foldl_of_ne (by decide)]
  by_cases hid : s.qmiclientId wds = 0
  · by_cases hservice : (s.serviceList wds).service = 0
    · have hself : allocClient sock s wds = s := if_pos hservice
      rw [hself]
      simp [hid, hservice]
    · rw [clients_allocClient hservice hid]
      dsimp only
      have hclient : ∀ client : ℤ, (if client ≠ 0 ∧ wds = wds then
          (s.setClient wds client).setClient wdsIpv6 (if sock wdsIpv6 = -1 then 0 else sock wdsIpv6)
          else s.setClient wds client).qmiclientId wds = client := by
        intro client
        split
        · rw [setClient_of_ne (by decide), setClient_self]
        · exact setClient_self s wds client
      rw [hclient]
      by_cases hsock : sock wds = -1
      · simp [hid, hsock]
      · simp [hid, hsock, hservice]
  · have hself : allocClient sock s wds = s := by
      by_cases hservice : (s.serviceList wds).service = 0
      · exact if_pos hservice
      · exact (if_neg hservice).trans (if_pos hid)
    rw [hself]
    simp [hid]

theorem events_foldl (sock : ℕ → ℤ) (s : Thread) (srvs : List ℕ) :
    (srvs.foldl (allocClient sock) s).events = s.events ∧
      (srvs.foldl (allocClient sock) s).report = s.report := by
  have hone : ∀ (t : Thread) (srv : ℕ), (allocClient sock t srv).events = t.events ∧
      (allocClient sock t srv).report = t.report := by
    intro t srv
    unfold allocClient
    dsimp only
    repeat' split
    all_goals exact ⟨rfl, rfl⟩
  induction srvs generalizing s with
  | nil => exact ⟨rfl, rfl⟩
  | cons srv srvs ih =>
      obtain ⟨hevents, hreport⟩ := ih (allocClient sock s srv)
      exact ⟨hevents.trans (hone s srv).1, hreport.trans (hone s srv).2⟩

theorem handleCtrlPkt_events (s : Thread) (pkt : CtrlPkt) :
    (handleCtrlPkt nodeModem s pkt).events = s.events ∧
      (handleCtrlPkt nodeModem s pkt).report = s.report := by
  unfold handleCtrlPkt handleServerChange
  repeat' split
  all_goals exact ⟨rfl, rfl⟩

theorem inits_concat (es : List Event) (e : Event) :
    (es ++ [e]).inits = es.inits ++ [es ++ [e]] := by
  rw [List.inits_append]
  rfl

theorem opensWds_concat (es : List Event) (e : Event) :
    opensWds nodeModem (es ++ [e]) =
      ((announced nodeModem (es ++ [e]) wds).service ≠ 0 && e.sock wds ≠ -1 && e.sock wds ≠ 0) := by
  rw [opensWds, List.getLast?_concat]

/-- What the thread knows of what has come. -/
structure Told (nodeModem : UInt32) (es : List Event) (s : Thread) : Prop where
  events : s.events = told nodeModem es
  report : s.report = (es.inits.find? fun fs => Ready nodeModem fs).isSome
  wds : s.report = false →
    (s.qmiclientId Qrtr.wds ≠ 0 ↔ es.inits.any (opensWds nodeModem) = true)

/-- After the report nothing is done any more. -/
theorem Told.handle_reported {es : List Event} {s : Thread} (h : Told nodeModem es s)
    (hreport : s.report = true) (e : Event) :
    Told nodeModem (es ++ [e]) (handle nodeModem s e) := by
  obtain ⟨hevents, hsame⟩ := @handleCtrlPkt_events nodeModem s e.pkt
  have hreport' : (handleCtrlPkt nodeModem s e.pkt).report = true := hsame.trans hreport
  have hself : handle nodeModem s e = handleCtrlPkt nodeModem s e.pkt := if_pos hreport'
  obtain ⟨fs, hfs⟩ := Option.isSome_iff_exists.1 (h.report ▸ hreport)
  have hfind : ((es ++ [e]).inits.find? fun fs => Ready nodeModem fs) = some fs := by
    rw [inits_concat, List.find?_append, hfs]
    rfl
  rw [hself]
  refine ⟨?_, ?_, fun hnone => absurd (hreport'.symm.trans hnone) (by decide)⟩
  · rw [hevents, h.events, told, told, hfind, hfs]
  · rw [hreport', hfind]
    rfl

/-- Before, a packet opens sockets, and is reported when it is the last one that is needed. -/
theorem Told.handle_unreported {es : List Event} {s : Thread} (h : Told nodeModem es s)
    (hlist : ∀ i, s.serviceList i = announced nodeModem es i) (hreport : s.report = false)
    (e : Event) : Told nodeModem (es ++ [e]) (handle nodeModem s e) := by
  obtain ⟨hevents, hsame⟩ := @handleCtrlPkt_events nodeModem s e.pkt
  have hids := qmiclientId_handleCtrlPkt nodeModem s e.pkt
  have hlist' : ∀ i, (handleCtrlPkt nodeModem s e.pkt).serviceList i =
      announced nodeModem (es ++ [e]) i := by
    intro i
    rw [serviceList_handleCtrlPkt, hlist, announced_concat]
  rw [handle]
  generalize handleCtrlPkt nodeModem s e.pkt = s' at hevents hsame hids hlist' ⊢
  have hnone : (es.inits.find? fun fs => Ready nodeModem fs) = none := by
    have hfalse := h.report.symm.trans hreport
    rwa [Option.isSome_eq_false_iff, Option.isNone_iff_eq_none] at hfalse
  have hfind : ((es ++ [e]).inits.find? fun fs => Ready nodeModem fs) =
      if Ready nodeModem (es ++ [e]) then some (es ++ [e]) else none := by
    rw [inits_concat, List.find?_append, hnone, Option.none_or, List.find?_singleton]
    simp only [decide_eq_true_eq]
  have hready : (∀ srv ∈ srvList, (s'.serviceList srv).service ≠ 0) ↔
      Ready nodeModem (es ++ [e]) := by
    simp only [hlist', Ready]
  have hwds : (srvList.foldl (allocClient e.sock) s').qmiclientId Qrtr.wds ≠ 0 ↔
      (es ++ [e]).inits.any (opensWds nodeModem) = true := by
    rw [wds_foldl, hids, hlist', h.wds hreport, inits_concat, List.any_append, List.any_cons,
      List.any_nil, Bool.or_false, Bool.or_eq_true, opensWds_concat]
    simp only [Bool.and_eq_true, decide_eq_true_eq, and_assoc]
  obtain ⟨hevents', hsame'⟩ := events_foldl e.sock s' srvList
  rw [handleAllocClient_eq e.sock (hsame.trans hreport), if_congr hready rfl rfl]
  generalize srvList.foldl (allocClient e.sock) s' = t at hwds hevents' hsame' ⊢
  have htold : t.events = [] := by
    rw [hevents', hevents, h.events, told, hnone]
  by_cases hall : Ready nodeModem (es ++ [e])
  · rw [if_pos hall] at hfind ⊢
    refine ⟨?_, ?_, fun hfalse => by cases hfalse⟩
    · simp only [told, hfind, htold, List.nil_append]
      by_cases hopen : (es ++ [e]).inits.any (opensWds nodeModem) = true
      · rw [if_pos hopen, if_pos (hwds.2 hopen)]
      · rw [if_neg hopen, if_neg fun hne => hopen (hwds.1 hne)]
    · rw [hfind]
      rfl
  · rw [if_neg hall] at hfind ⊢
    refine ⟨?_, ?_, fun _ => hwds⟩
    · rw [htold, told, hfind]
    · rw [hsame', hsame, hreport, hfind]
      rfl

end QuectelCM.Qrtr

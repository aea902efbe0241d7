/-
**The QMI proxy between its clients and the modem.**

The proxy of `OpenwrtPackage.QmiProxy.Model` together with what it talks to: the descriptors the
operating system has given out, and the control requests the modem has been sent and has not
answered.  A step is one turn of `qmi_proxy_loop`.

Main definitions:

* `QmiProxy.World`, `QmiProxy.World.start` — the proxy and its surroundings; the start is the
  moment the server socket has been opened;
* `QmiProxy.Event`, `QmiProxy.World.step` — what can happen, and what it does;
* `QmiProxy.ctlWrites`, `QmiProxy.World.receivers` — the control requests among some writes, and the
  connections that get the writes to clients.

Main results:

* `QmiProxy.World.step_cases` — everything a step can do;
* `QmiProxy.World.Inv`, `QmiProxy.World.inv_step`, `QmiProxy.World.inv_of_mem_states` — what holds
  in every reachable state: connections and descriptors agree, and the requests that wait behind
  the head of the queue have not been written.
-/
import OpenwrtPackage.Lib.EventRun
import OpenwrtPackage.Lib.Keyed
import OpenwrtPackage.Lib.SocketTable
import OpenwrtPackage.QmiProxy.Model

set_option relaxedAutoImplicit false
set_option autoImplicit false

namespace QmiProxy

open Qmi

/-! ### What passes between the proxy and the modem -/

/-- The control requests among the writes of a handler. -/
def ctlWrites : List Action → List Msg
  | [] => []
  | .toDev m :: acts =>
      if qmiHdrQmiType m.bytes = qmuxTypeCtl then m :: ctlWrites acts else ctlWrites acts
  | _ :: acts => ctlWrites acts

/-- A control message from the device that carries the response flag. -/
def IsCtlRsp (bytes : List UInt8) : Prop :=
  qmiHdrQmiType bytes = qmuxTypeCtl ∧ ctlFlags bytes = qmictlCtlFlagRsp

/-- A control message from the device that is no response. -/
def IsCtlInd (bytes : List UInt8) : Prop :=
  qmiHdrQmiType bytes = qmuxTypeCtl ∧ ctlFlags bytes ≠ qmictlCtlFlagRsp

/-- A control request that the proxy accepts from a client. -/
def IsCtlRequest (bytes : List UInt8) : Prop :=
  qmiHdrQmiType bytes = qmuxTypeCtl ∧ qmictlType bytes ≠ qmictlSyncReq

instance (bytes : List UInt8) : Decidable (IsCtlRsp bytes) :=
  inferInstanceAs (Decidable (_ ∧ _))

instance (bytes : List UInt8) : Decidable (IsCtlInd bytes) :=
  inferInstanceAs (Decidable (_ ∧ _))

instance (bytes : List UInt8) : Decidable (IsCtlRequest bytes) :=
  inferInstanceAs (Decidable (_ ∧ _))

/-- The proxy, the descriptors of its clients, and the traffic with the modem.

`serial` counts the messages from clients.  `requests` are the control requests accepted from
clients, `written` those written to the modem, both in order; `unanswered` are the written ones
whose answer has not come. -/
structure World where
  proxy : Proxy
  sockets : SocketTable
  serial : ℕ
  requests : List Msg
  written : List Msg
  unanswered : List Msg

/-- What can happen next to the loop. -/
inductive Event where
  /-- a client connects and gets the descriptor `fd` -/
  | accept (fd : ℤ)
  /-- the client on `fd` goes away: an error on its descriptor, or nothing left to read -/
  | hangup (fd : ℤ)
  /-- a message from the client on `fd`; it stands at the front of the buffer `bytes` -/
  | request (fd : ℤ) (bytes : List UInt8)
  /-- the modem answers the `i`-th of its unanswered control requests -/
  | answer (i : ℕ) (bytes : List UInt8)
  /-- the modem sends anything else: an indication, or a service message -/
  | unsolicited (bytes : List UInt8)

namespace World

/-- The server socket has been opened and nobody has connected yet. -/
def start (serverFd : {fd : ℤ // 0 < fd}) : World where
  proxy := ⟨serverFd, [], [], false, true⟩
  sockets := SocketTable.empty
  serial := 0
  requests := []
  written := []
  unanswered := []

/-- The server socket in the runs that are written out. -/
def sampleServerFd : {fd : ℤ // 0 < fd} := ⟨4, Int.natCast_pos.2 (Nat.succ_pos 3)⟩

/-- The state after the handler of a device message has run, where `left` are the requests still
unanswered before the handler writes. -/
def afterDev (w : World) (bytes : List UInt8) (left : List Msg) : World :=
  let r := recvQmiFromDev w.proxy bytes
  { w with
    proxy := r.1
    written := w.written ++ ctlWrites r.2
    unanswered := left ++ ctlWrites r.2 }

/-- The state after a message from the connection `c` on `fd` has been handled. -/
def afterRequest (w : World) (fd : ℤ) (c : ℕ) (bytes : List UInt8) : World :=
  let m : Msg := ⟨bytes, c, w.serial⟩
  let r := recvQmiFromClient w.proxy m (qmiSize bytes) fd
  { w with
    proxy := r.1
    serial := w.serial + 1
    requests := if IsCtlRequest bytes then w.requests ++ [wire m] else w.requests
    written := w.written ++ ctlWrites r.2
    unanswered := w.unanswered ++ ctlWrites r.2 }

/-- The state after the client on `fd` has gone. -/
def afterHangup (w : World) (fd : ℤ) : World :=
  { w with
    proxy := (cleanupQmiConnection w.proxy fd).1
    sockets := w.sockets.close fd }

/-- The state after a client has been accepted on `fd`. -/
def afterAccept (w : World) (fd : ℤ) (h : fd ∉ w.sockets.fds) : World :=
  { w with
    proxy := acceptQmiConnection w.proxy fd
    sockets := w.sockets.accept fd h }

/-- One turn of the loop.  It runs until the modem has reset itself.  A client message has a whole
header, and its length field gives its size; the modem answers only what it was sent. -/
def step (w : World) (e : Event) : Option World :=
  if w.proxy.modemResetFlag then none
  else
    match e with
    | .accept fd =>
        if h : fd ∉ w.sockets.fds then
          if 0 ≤ fd then some (w.afterAccept fd h) else none
        else none
    | .hangup fd => if fd ∈ w.sockets.fds then some (w.afterHangup fd) else none
    | .request fd bytes =>
        match w.sockets.owner fd with
        | none => none
        | some c =>
            if qcqmiHdrSize ≤ qmiSize bytes then some (w.afterRequest fd c bytes) else none
    | .answer i bytes =>
        if i < w.unanswered.length ∧ IsCtlRsp bytes then
          some (w.afterDev bytes (w.unanswered.eraseIdx i))
        else none
    | .unsolicited bytes =>
        if IsCtlRsp bytes then none else some (w.afterDev bytes w.unanswered)

/-- The connections that get the writes of a handler, with what they get.  A write to a descriptor
reaches the connection that has it. -/
def receivers (t : SocketTable) : List Action → List (ℕ × List UInt8)
  | [] => []
  | .toClient fd bytes :: acts =>
      match t.owner fd with
      | none => receivers t acts
      | some c => (c, bytes) :: receivers t acts
  | _ :: acts => receivers t acts

/-- **Everything a step can do.** -/
theorem step_cases {w w' : World} {e : Event} (h : w.step e = some w') :
    w.proxy.modemResetFlag = false ∧
      match e with
      | .accept fd => 0 ≤ fd ∧ ∃ hfd, w' = w.afterAccept fd hfd
      | .hangup fd => fd ∈ w.sockets.fds ∧ w' = w.afterHangup fd
      | .request fd bytes => ∃ c, (fd, c) ∈ w.sockets.entries ∧
          qcqmiHdrSize ≤ qmiSize bytes ∧ w' = w.afterRequest fd c bytes
      | .answer i bytes => i < w.unanswered.length ∧ IsCtlRsp bytes ∧
          w' = w.afterDev bytes (w.unanswered.eraseIdx i)
      | .unsolicited bytes => ¬ IsCtlRsp bytes ∧ w' = w.afterDev bytes w.unanswered := by
  unfold step at h
  split at h
  · simp at h
  · rename_i hr
    refine ⟨by simpa using hr, ?_⟩
    cases e with
    | accept fd =>
        obtain ⟨hfd, h⟩ := Option.dite_none_right_eq_some.1 h
        obtain ⟨hpos, h⟩ := Option.ite_none_right_eq_some.1 h
        exact ⟨hpos, hfd, (Option.some.inj h).symm⟩
    | hangup fd =>
        obtain ⟨hfd, h⟩ := Option.ite_none_right_eq_some.1 h
        exact ⟨hfd, (Option.some.inj h).symm⟩
    | request fd bytes =>
        simp only at h ⊢
        split at h
        · simp at h
        · rename_i c hc
          obtain ⟨hsize, h⟩ := Option.ite_none_right_eq_some.1 h
          exact ⟨c, SocketTable.owner_eq_some_iff.1 hc, hsize, (Option.some.inj h).symm⟩
    | answer i bytes =>
        obtain ⟨hi, h⟩ := Option.ite_none_right_eq_some.1 h
        exact ⟨hi.1, hi.2, (Option.some.inj h).symm⟩
    | unsolicited bytes =>
        obtain ⟨hrsp, h⟩ := Option.ite_none_left_eq_some.1 h
        exact ⟨hrsp, (Option.some.inj h).symm⟩

end World

/-! ### Which control requests a handler writes -/

@[simp] theorem ctlWrites_append (as bs : List Action) :
    ctlWrites (as ++ bs) = ctlWrites as ++ ctlWrites bs := by
  induction as with
  | nil => rfl
  | cons a as ih =>
      cases a with
      | toDev m =>
          simp only [List.cons_append, ctlWrites, ih]
          split <;> rfl
      | toClient fd bytes => exact ih
      | close fd => exact ih

theorem ctlWrites_eq_nil {acts : List Action} (h : ∀ a ∈ acts, ∀ m, a ≠ .toDev m) :
    ctlWrites acts = [] := by
  induction acts with
  | nil => rfl
  | cons a acts ih =>
      have htail := ih fun b hb => h b (List.mem_cons_of_mem _ hb)
      cases a with
      | toDev m => exact absurd rfl (h _ (List.mem_cons_self ..) m)
      | toClient fd bytes => exact htail
      | close fd => exact htail

theorem ctlWrites_answerHead (p : Proxy) (m : List UInt8) : ctlWrites (answerHead p m).2 = [] := by
  refine ctlWrites_eq_nil fun a ha q => ?_
  unfold answerHead at ha
  split at ha
  · simp at ha
  · obtain ⟨c, -, hc⟩ := List.mem_flatMap.1 ha
    rw [sendQmiToClient, List.mem_singleton] at hc
    simp [hc]

theorem ctlWrites_serviceWrites (p : Proxy) (m : List UInt8) :
    ctlWrites (serviceWrites p m) = [] := by
  refine ctlWrites_eq_nil fun a ha q => ?_
  obtain ⟨c, -, hc⟩ := List.mem_flatMap.1 ha
  obtain ⟨d, -, hd⟩ := List.mem_flatMap.1 hc
  split at hd
  · rw [sendQmiToClient, List.mem_singleton] at hd
    simp [hd]
  · simp at hd

/-- A control message as the queue holds it: cut to its size. -/
def Queued (m : Msg) : Prop := wire m = m ∧ qmiHdrQmiType m.bytes = qmuxTypeCtl

theorem queued_wire {m : Msg} (hm : qcqmiHdrSize ≤ qmiSize m.bytes) (hc : IsCtlRequest m.bytes) :
    Queued (wire m) :=
  ⟨wire_wire hm, (qmiHdrQmiType_wire hm).trans hc.1⟩

/-- The request at the head of the queue, if its client is connected. -/
def headWrite (p : Proxy) : List Msg :=
  match p.qmiProxyCtlMsg with
  | [] => []
  | qmiMsg :: _ => if qmiMsg.clientFd ∈ p.fds then [qmiMsg.qmi] else []

theorem ctlWrites_sendQmiToCdcWdm {m : Msg} (h : Queued m) : ctlWrites (sendQmiToCdcWdm m) = [m] := by
  rw [sendQmiToCdcWdm, h.1]
  simp only [ctlWrites, h.2, if_true]

theorem ctlWrites_sendHead {p : Proxy} (hn : p.fds.Nodup)
    (hq : ∀ q ∈ p.qmiProxyCtlMsg, Queued q.qmi) : ctlWrites (sendHead p) = headWrite p := by
  unfold sendHead headWrite
  cases hl : p.qmiProxyCtlMsg with
  | nil => rfl
  | cons q rest =>
      have hh : Queued q.qmi := hq q (by rw [hl]; exact List.mem_cons_self ..)
      simp only
      rw [flatMap_filter_fds hn]
      split
      · exact ctlWrites_sendQmiToCdcWdm hh
      · rfl

/-- What the handler of a device message does to the queue. -/
theorem recvQmiFromDev_ctlMsg {p : Proxy} (hs : 0 < p.qmiProxyServerFd) (m : List UInt8) :
    (recvQmiFromDev p m).1.qmiProxyCtlMsg =
      if IsCtlRsp m then p.qmiProxyCtlMsg.tail else p.qmiProxyCtlMsg := by
  have hne : ¬ p.qmiProxyServerFd = -1 := by omega
  simp only [recvQmiFromDev, hne, if_false]
  by_cases ht : qmiHdrQmiType m = qmuxTypeCtl
  · by_cases hf : ctlFlags m = qmictlCtlFlagRsp
    · simp [ht, hf, IsCtlRsp, answerHead_ctlMsg]
    · simp [ht, hf, IsCtlRsp]
  · simp [ht, IsCtlRsp]

/-- After any control message from the device, and only then, the head of the queue is written. -/
theorem ctlWrites_recvQmiFromDev {p : Proxy} (hs : 0 < p.qmiProxyServerFd) (hn : p.fds.Nodup)
    (hq : ∀ q ∈ p.qmiProxyCtlMsg, Queued q.qmi) (m : List UInt8) :
    ctlWrites (recvQmiFromDev p m).2 =
      if qmiHdrQmiType m = qmuxTypeCtl then headWrite (recvQmiFromDev p m).1 else [] := by
  have hne : ¬ p.qmiProxyServerFd = -1 := by omega
  simp only [recvQmiFromDev, hne, if_false]
  by_cases ht : qmiHdrQmiType m = qmuxTypeCtl
  · by_cases hf : ctlFlags m = qmictlCtlFlagRsp
    · have hn' : (answerHead p m).1.fds.Nodup := by rwa [answerHead_fds]
      have hq' : ∀ q ∈ (answerHead p m).1.qmiProxyCtlMsg, Queued q.qmi := by
        rw [answerHead_ctlMsg]
        exact fun q h => hq q (List.mem_of_mem_tail h)
      simp [ht, hf, ctlWrites_answerHead, ctlWrites_sendHead hn' hq']
    · simp [ht, hf, ctlWrites_sendHead hn hq]
  · simp [ht, ctlWrites_serviceWrites]

/-- What the handler of a client message does to the queue. -/
theorem recvQmiFromClient_ctlMsg {p : Proxy} (hs : 0 < p.qmiProxyServerFd) (m : Msg) (fd : ℤ) :
    (recvQmiFromClient p m (qmiSize m.bytes) fd).1 =
      if IsCtlRequest m.bytes then
        { p with qmiProxyCtlMsg := p.qmiProxyCtlMsg ++ [⟨fd, wire m⟩] }
      else p := by
  have hne : ¬ p.qmiProxyServerFd ≤ 0 := by omega
  simp only [recvQmiFromClient, hne, if_false]
  by_cases ht : qmiHdrQmiType m.bytes = qmuxTypeCtl
  · by_cases hy : qmictlType m.bytes = qmictlSyncReq
    · simp [ht, hy, IsCtlRequest]
    · simp [ht, hy, IsCtlRequest, wire]
  · simp [ht, IsCtlRequest]

/-- A control request from a client is written at once if no other is outstanding. -/
theorem ctlWrites_recvQmiFromClient {p : Proxy} (hs : 0 < p.qmiProxyServerFd) {m : Msg}
    (hm : qcqmiHdrSize ≤ qmiSize m.bytes) (fd : ℤ) :
    ctlWrites (recvQmiFromClient p m (qmiSize m.bytes) fd).2 =
      if IsCtlRequest m.bytes ∧ p.qmiProxyCtlMsg = [] then [wire m] else [] := by
  have hne : ¬ p.qmiProxyServerFd ≤ 0 := by omega
  simp only [recvQmiFromClient, hne, if_false]
  by_cases ht : qmiHdrQmiType m.bytes = qmuxTypeCtl
  · by_cases hy : qmictlType m.bytes = qmictlSyncReq
    · simp [ht, hy, IsCtlRequest, ctlWrites]
    · cases hl : p.qmiProxyCtlMsg with
      | nil => simp [ht, hy, IsCtlRequest, sendQmiToCdcWdm, ctlWrites, qmiHdrQmiType_wire hm]
      | cons q rest => simp [ht, hy, ctlWrites]
  · simp [ht, IsCtlRequest, sendQmiToCdcWdm, ctlWrites, qmiHdrQmiType_wire hm]

theorem exists_of_mem_headWrite {p : Proxy} {m : Msg} (h : m ∈ headWrite p) :
    ∃ q rest, p.qmiProxyCtlMsg = q :: rest ∧ m = q.qmi := by
  unfold headWrite at h
  cases hl : p.qmiProxyCtlMsg with
  | nil => simp [hl] at h
  | cons q rest =>
      simp only [hl] at h
      split at h
      · exact ⟨q, rest, rfl, List.mem_singleton.1 h⟩
      · simp at h

namespace World

/-! ### What holds in every reachable state -/

/-- The queue of control requests. -/
def queue (w : World) : List QmiProxyMsg := w.proxy.qmiProxyCtlMsg

/-- **What holds in every reachable state**, whatever clients and modem do. -/
structure Inv (w : World) : Prop where
  serverOpen : 0 < w.proxy.qmiProxyServerFd
  /-- the connections of the proxy are those whose descriptors are open -/
  linked : w.proxy.fds = w.sockets.fds
  queued : ∀ q ∈ w.queue, Queued q.qmi
  /-- requests are queued in the order they came in -/
  sorted : w.queue.Pairwise fun q r => q.qmi.serial < r.qmi.serial
  /-- the requests behind the head have not been written -/
  ahead : ∀ q ∈ w.queue.tail, ∀ m ∈ w.written, m.serial < q.qmi.serial
  queueFresh : ∀ q ∈ w.queue, q.qmi.serial < w.serial
  writtenFresh : ∀ m ∈ w.written, m.serial < w.serial
  unansweredWritten : ∀ m ∈ w.unanswered, m ∈ w.written

theorem Inv.fds_nodup {w : World} (hi : w.Inv) : w.proxy.fds.Nodup := by
  rw [hi.linked]
  exact w.sockets.fds_nodup

theorem inv_start (serverFd : {fd : ℤ // 0 < fd}) : (start serverFd).Inv where
  serverOpen := serverFd.2
  linked := rfl
  queued := by simp [start, queue]
  sorted := List.Pairwise.nil
  ahead := by simp [start, queue]
  queueFresh := by simp [start, queue]
  writtenFresh := by simp [start]
  unansweredWritten := by simp [start]

/-! The effect of each kind of step on the queue and on the traffic with the modem. -/

theorem afterDev_queue {w : World} (hi : w.Inv) (bytes : List UInt8) (left : List Msg) :
    (w.afterDev bytes left).queue = if IsCtlRsp bytes then w.queue.tail else w.queue :=
  recvQmiFromDev_ctlMsg hi.serverOpen bytes

/-- The control requests written in a turn that handles a device message. -/
def devWrites (w : World) (bytes : List UInt8) : List Msg :=
  if qmiHdrQmiType bytes = qmuxTypeCtl then headWrite (recvQmiFromDev w.proxy bytes).1 else []

theorem afterDev_written {w : World} (hi : w.Inv) (bytes : List UInt8) (left : List Msg) :
    (w.afterDev bytes left).written = w.written ++ w.devWrites bytes := by
  simp only [afterDev, devWrites]
  rw [ctlWrites_recvQmiFromDev hi.serverOpen hi.fds_nodup hi.queued]

theorem afterDev_unanswered {w : World} (hi : w.Inv) (bytes : List UInt8) (left : List Msg) :
    (w.afterDev bytes left).unanswered = left ++ w.devWrites bytes := by
  simp only [afterDev, devWrites]
  rw [ctlWrites_recvQmiFromDev hi.serverOpen hi.fds_nodup hi.queued]

theorem afterRequest_queue {w : World} (hi : w.Inv) (fd : ℤ) (c : ℕ) (bytes : List UInt8) :
    (w.afterRequest fd c bytes).queue =
      if IsCtlRequest bytes then w.queue ++ [⟨fd, wire ⟨bytes, c, w.serial⟩⟩] else w.queue := by
  have h := recvQmiFromClient_ctlMsg hi.serverOpen ⟨bytes, c, w.serial⟩ fd
  simp only [queue, afterRequest, h]
  split <;> rfl

/-- The control requests written in a turn that handles a client message. -/
def requestWrites (w : World) (c : ℕ) (bytes : List UInt8) : List Msg :=
  if IsCtlRequest bytes ∧ w.queue = [] then [wire ⟨bytes, c, w.serial⟩] else []

/-- What is in the queue after a client message was in it before, or is that message. -/
theorem mem_afterRequest_queue {w : World} (hi : w.Inv) {fd : ℤ} {c : ℕ} {bytes : List UInt8}
    {q : QmiProxyMsg} (hq : q ∈ (w.afterRequest fd c bytes).queue) :
    q ∈ w.queue ∨ IsCtlRequest bytes ∧ q = ⟨fd, wire ⟨bytes, c, w.serial⟩⟩ := by
  rw [afterRequest_queue hi] at hq
  split at hq
  · rename_i hc
    rcases List.mem_append.1 hq with hq | hq
    · exact Or.inl hq
    · exact Or.inr ⟨hc, List.mem_singleton.1 hq⟩
  · exact Or.inl hq

/-- What is written in a turn that handles a client message is that message. -/
theorem eq_of_mem_requestWrites {w : World} {c : ℕ} {bytes : List UInt8} {m : Msg}
    (hm : m ∈ w.requestWrites c bytes) : m = wire ⟨bytes, c, w.serial⟩ := by
  unfold requestWrites at hm
  split at hm
  · exact List.mem_singleton.1 hm
  · simp at hm

/-- Behind the head of a queue nothing is written in the turn in which it is queued. -/
theorem requestWrites_eq_nil {w : World} (hi : w.Inv) {fd : ℤ} {c : ℕ} {bytes : List UInt8}
    {q : QmiProxyMsg} (hq : q ∈ (w.afterRequest fd c bytes).queue.tail) :
    w.requestWrites c bytes = [] ∧
      (q ∈ w.queue.tail ∨ q = ⟨fd, wire ⟨bytes, c, w.serial⟩⟩) := by
  rw [afterRequest_queue hi] at hq
  split at hq
  · cases hl : w.queue with
    | nil => simp [hl] at hq
    | cons r rest =>
        rw [hl, List.cons_append, List.tail_cons] at hq
        refine ⟨by simp [requestWrites, hl], ?_⟩
        rcases List.mem_append.1 hq with hq | hq
        · exact Or.inl hq
        · exact Or.inr (List.mem_singleton.1 hq)
  · rename_i hc
    exact ⟨by simp [requestWrites, hc], Or.inl hq⟩

theorem afterRequest_written {w : World} (hi : w.Inv) {fd : ℤ} {c : ℕ} {bytes : List UInt8}
    (hb : qcqmiHdrSize ≤ qmiSize bytes) :
    (w.afterRequest fd c bytes).written = w.written ++ w.requestWrites c bytes := by
  have h := @ctlWrites_recvQmiFromClient w.proxy hi.serverOpen ⟨bytes, c, w.serial⟩ hb fd
  exact congrArg (w.written ++ ·) h

theorem afterRequest_unanswered {w : World} (hi : w.Inv) {fd : ℤ} {c : ℕ} {bytes : List UInt8}
    (hb : qcqmiHdrSize ≤ qmiSize bytes) :
    (w.afterRequest fd c bytes).unanswered = w.unanswered ++ w.requestWrites c bytes := by
  have h := @ctlWrites_recvQmiFromClient w.proxy hi.serverOpen ⟨bytes, c, w.serial⟩ hb fd
  exact congrArg (w.unanswered ++ ·) h

theorem afterRequest_connection {w : World} (hi : w.Inv) (fd : ℤ) (c : ℕ) (bytes : List UInt8) :
    (w.afterRequest fd c bytes).proxy.qmiProxyConnection = w.proxy.qmiProxyConnection := by
  have h := recvQmiFromClient_ctlMsg hi.serverOpen ⟨bytes, c, w.serial⟩ fd
  simp only [afterRequest, h]
  split <;> rfl

theorem afterRequest_serverFd {w : World} (hi : w.Inv) (fd : ℤ) (c : ℕ) (bytes : List UInt8) :
    (w.afterRequest fd c bytes).proxy.qmiProxyServerFd = w.proxy.qmiProxyServerFd := by
  have h := recvQmiFromClient_ctlMsg hi.serverOpen ⟨bytes, c, w.serial⟩ fd
  simp only [afterRequest, h]
  split <;> rfl

/-- A descriptor that is open has a connection, so that its cleanup finds one. -/
theorem Inv.any_clientFd {w : World} (hi : w.Inv) {fd : ℤ} (h : fd ∈ w.sockets.fds) :
    w.proxy.qmiProxyConnection.any (fun qmiCon => qmiCon.clientFd = fd) = true := by
  rw [← hi.linked] at h
  obtain ⟨c, hc, rfl⟩ := List.mem_map.1 h
  exact List.any_eq_true.2 ⟨c, hc, by simp⟩

/-- The client whose descriptor is cleaned up is taken from the list. -/
theorem afterHangup_connection {w : World} (hi : w.Inv) {fd : ℤ} (h : fd ∈ w.sockets.fds) :
    (w.afterHangup fd).proxy.qmiProxyConnection =
      w.proxy.qmiProxyConnection.filter fun qmiCon => qmiCon.clientFd ≠ fd := by
  simp only [afterHangup, cleanupQmiConnection, hi.any_clientFd h, if_true]
  exact Keyed.eraseP_eq_filter hi.fds_nodup fd

/-- Of the requests of the client that goes, the first leaves the queue. -/
theorem afterHangup_queue {w : World} (hi : w.Inv) {fd : ℤ} (h : fd ∈ w.sockets.fds) :
    (w.afterHangup fd).queue = w.queue.eraseP fun q => q.clientFd = fd := by
  simp only [queue, afterHangup, cleanupQmiConnection, hi.any_clientFd h, if_true]

theorem afterHangup_serverFd (w : World) (fd : ℤ) :
    (w.afterHangup fd).proxy.qmiProxyServerFd = w.proxy.qmiProxyServerFd := by
  simp only [afterHangup, cleanupQmiConnection]
  split <;> rfl

/-! Each kind of step keeps the invariant. -/

theorem inv_accept {w : World} (hi : w.Inv) (fd : ℤ) (h : fd ∉ w.sockets.fds) :
    (w.afterAccept fd h).Inv where
  serverOpen := hi.serverOpen
  linked := by
    simp only [afterAccept, acceptQmiConnection, Proxy.fds, List.map_append, List.map_cons,
      List.map_nil, SocketTable.fds_accept]
    rw [← hi.linked]
    rfl
  queued := hi.queued
  sorted := hi.sorted
  ahead := hi.ahead
  queueFresh := hi.queueFresh
  writtenFresh := hi.writtenFresh
  unansweredWritten := hi.unansweredWritten

theorem inv_hangup {w : World} (hi : w.Inv) {fd : ℤ} (h : fd ∈ w.sockets.fds) :
    (w.afterHangup fd).Inv := by
  have hq := afterHangup_queue hi h
  have hsub : (w.afterHangup fd).queue.Sublist w.queue := hq ▸ List.eraseP_sublist ..
  have htail : (w.afterHangup fd).queue.tail.Sublist w.queue.tail := by
    rw [hq]
    cases w.queue with
    | nil => simp
    | cons q rest =>
        by_cases hfd : q.clientFd = fd
        · rw [List.eraseP_cons_of_pos (by simpa using hfd)]
          exact List.tail_sublist rest
        · rw [List.eraseP_cons_of_neg (by simpa using hfd)]
          exact List.eraseP_sublist ..
  refine
    { serverOpen := (afterHangup_serverFd w fd) ▸ hi.serverOpen
      linked := ?_
      queued := fun q hq => hi.queued q (hsub.subset hq)
      sorted := hi.sorted.sublist hsub
      ahead := fun q hq m hm => hi.ahead q (htail.subset hq) m hm
      queueFresh := fun q hq => hi.queueFresh q (hsub.subset hq)
      writtenFresh := hi.writtenFresh
      unansweredWritten := hi.unansweredWritten }
  have hfds : (w.afterHangup fd).sockets.fds = w.sockets.fds.filter (· ≠ fd) :=
    SocketTable.fds_close w.sockets fd
  rw [Proxy.fds, afterHangup_connection hi h, hfds, ← hi.linked, Proxy.fds, List.filter_map]
  rfl

theorem inv_request {w : World} (hi : w.Inv) {fd : ℤ} (c : ℕ) {bytes : List UInt8}
    (hb : qcqmiHdrSize ≤ qmiSize bytes) : (w.afterRequest fd c bytes).Inv := by
  have hfds : (w.afterRequest fd c bytes).proxy.fds = w.proxy.fds := by
    rw [Proxy.fds, afterRequest_connection hi, Proxy.fds]
  have hwr := @afterRequest_written w hi fd c bytes hb
  have hun := @afterRequest_unanswered w hi fd c bytes hb
  have hser : (w.afterRequest fd c bytes).serial = w.serial + 1 := rfl
  refine
    { serverOpen := (afterRequest_serverFd hi fd c bytes) ▸ hi.serverOpen
      linked := hfds.trans hi.linked
      queued := ?_, sorted := ?_, ahead := ?_, queueFresh := ?_, writtenFresh := ?_
      unansweredWritten := ?_ }
  · intro q hmem
    rcases mem_afterRequest_queue hi hmem with hmem | ⟨hc, rfl⟩
    · exact hi.queued q hmem
    · exact queued_wire hb hc
  · rw [afterRequest_queue hi]
    split
    · refine List.pairwise_append.2 ⟨hi.sorted, by simp, ?_⟩
      intro q hmem r hr
      rw [List.mem_singleton.1 hr]
      exact hi.queueFresh q hmem
    · exact hi.sorted
  · -- a request that is queued behind another is not written in the same turn
    intro q hmem m hm
    obtain ⟨hnone, hmem⟩ := requestWrites_eq_nil hi hmem
    rw [hwr, hnone, List.append_nil] at hm
    rcases hmem with hmem | rfl
    · exact hi.ahead q hmem m hm
    · exact hi.writtenFresh m hm
  · intro q hmem
    rw [hser]
    rcases mem_afterRequest_queue hi hmem with hmem | ⟨-, rfl⟩
    · exact Nat.lt_succ_of_lt (hi.queueFresh q hmem)
    · exact Nat.lt_succ_self _
  · intro m hm
    rw [hser]
    rw [hwr] at hm
    rcases List.mem_append.1 hm with hm | hm
    · exact Nat.lt_succ_of_lt (hi.writtenFresh m hm)
    · rw [eq_of_mem_requestWrites hm]
      exact Nat.lt_succ_self _
  · rw [hun, hwr]
    exact List.append_subset.2 ⟨List.subset_append_of_subset_left _ hi.unansweredWritten,
      List.subset_append_right _ _⟩

/-- What a turn that handles a device message writes is the head of the queue it leaves. -/
theorem exists_of_mem_devWrites {w : World} {bytes : List UInt8} {left : List Msg} {m : Msg}
    (h : m ∈ w.devWrites bytes) :
    ∃ q rest, (w.afterDev bytes left).queue = q :: rest ∧ m = q.qmi := by
  unfold devWrites at h
  split at h
  · exact exists_of_mem_headWrite h
  · simp at h

theorem inv_dev {w : World} (hi : w.Inv) (bytes : List UInt8) {left : List Msg}
    (hleft : ∀ m ∈ left, m ∈ w.unanswered) : (w.afterDev bytes left).Inv := by
  have hfds : (w.afterDev bytes left).proxy.fds = w.proxy.fds := recvQmiFromDev_fds w.proxy bytes
  have hserver : (w.afterDev bytes left).proxy.qmiProxyServerFd = w.proxy.qmiProxyServerFd :=
    recvQmiFromDev_serverFd w.proxy bytes
  have hwr := afterDev_written hi bytes left
  have hun := afterDev_unanswered hi bytes left
  have hsub : (w.afterDev bytes left).queue.Sublist w.queue := by
    rw [afterDev_queue hi]
    split
    · exact List.tail_sublist w.queue
    · exact List.Sublist.refl _
  have htail : (w.afterDev bytes left).queue.tail.Sublist w.queue.tail := by
    rw [afterDev_queue hi]
    split
    · exact List.tail_sublist _
    · exact List.Sublist.refl _
  have hsorted := hi.sorted.sublist hsub
  refine
    { serverOpen := hserver ▸ hi.serverOpen
      linked := hfds.trans hi.linked
      queued := fun q hq => hi.queued q (hsub.subset hq)
      sorted := hsorted
      ahead := ?_
      queueFresh := fun q hq => hi.queueFresh q (hsub.subset hq)
      writtenFresh := ?_
      unansweredWritten := ?_ }
  · intro q hq m hm
    rw [hwr] at hm
    rcases List.mem_append.1 hm with hm | hm
    · exact hi.ahead q (htail.subset hq) m hm
    · -- what is written now is the head, and the queue is sorted
      obtain ⟨r, rest, hl, rfl⟩ := @exists_of_mem_devWrites w bytes left m hm
      rw [hl] at hsorted hq
      exact List.rel_of_pairwise_cons hsorted hq
  · intro m hm
    rw [hwr] at hm
    rcases List.mem_append.1 hm with hm | hm
    · exact hi.writtenFresh m hm
    · obtain ⟨r, rest, hl, rfl⟩ := @exists_of_mem_devWrites w bytes left m hm
      exact hi.queueFresh r (hsub.subset (hl ▸ List.mem_cons_self ..))
  · rw [hun, hwr]
    exact List.append_subset.2 ⟨List.subset_append_of_subset_left _ fun m hm =>
      hi.unansweredWritten m (hleft m hm), List.subset_append_right _ _⟩

/-- **Every step keeps the invariant.** -/
theorem inv_step {w w' : World} {e : Event} (hi : w.Inv) (h : w.step e = some w') : w'.Inv := by
  obtain ⟨-, h⟩ := step_cases h
  cases e with
  | accept fd =>
      obtain ⟨-, hfd, rfl⟩ := h
      exact inv_accept hi fd hfd
  | hangup fd =>
      obtain ⟨hfd, rfl⟩ := h
      exact inv_hangup hi hfd
  | request fd bytes =>
      obtain ⟨c, -, hb, rfl⟩ := h
      exact inv_request hi c hb
  | answer i bytes =>
      obtain ⟨-, -, rfl⟩ := h
      exact inv_dev hi bytes fun m hm => List.mem_of_mem_eraseIdx hm
  | unsolicited bytes =>
      obtain ⟨-, rfl⟩ := h
      exact inv_dev hi bytes fun m hm => hm

/-- The invariant holds all along every run. -/
theorem inv_of_mem_states {serverFd : {fd : ℤ // 0 < fd}} {evs : List Event} {w : World}
    (hw : w ∈ EventRun.states step (start serverFd) evs) : w.Inv :=
  EventRun.invariant Inv (fun _ _ _ hi h => inv_step hi h) (inv_start serverFd) evs w hw

end World

end QmiProxy

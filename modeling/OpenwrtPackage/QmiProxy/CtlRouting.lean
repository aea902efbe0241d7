/-
**Where the answers to control requests go.**

An answer from the modem is given to the client whose request is at the head of the queue; its
transaction id is not looked at.  That is the right client as long as the queue and the modem agree
on which request is outstanding.  They stop agreeing when a client goes away and its outstanding
request is taken from the queue: the answer still comes, and the proxy takes it for the answer to
the next request.

* `QmiProxy.World.RoutedTo` — an answer reaches the connection it is for and no other, and is
  recorded there and nowhere else;
* `QmiProxy.World.Routed` — the next answer, whatever it says, is routed so;
* `QmiProxy.World.RoutingOk` — clients go away cleanly, and no request is taken into an empty queue
  while the modem owes an answer;
* `QmiProxy.World.routed_of_routingOk` — **in a run whose steps are of this kind, every answer is
  routed to the client it is for**;
* `QmiProxy.World.not_routed` — a run in which an answer goes to another client.
-/
import OpenwrtPackage.QmiProxy.CtlQueue

set_option relaxedAutoImplicit false
set_option autoImplicit false

namespace QmiProxy

open Qmi

namespace World

/-- The answer `bytes` to the request `req` goes where it belongs. -/
structure RoutedTo (w : World) (req : Msg) (bytes : List UInt8) : Prop where
  /-- it is delivered to the connection that sent the request, and to nobody if that is gone -/
  delivered : receivers w.sockets (recvQmiFromDev w.proxy bytes).2 =
    if w.sockets.Alive req.sender then [(req.sender, bytes.take (qmiSize bytes))] else []
  /-- a granted or released client id is recorded in that connection only -/
  recorded : (recvQmiFromDev w.proxy bytes).1.qmiProxyConnection =
    w.proxy.qmiProxyConnection.map fun qmiCon =>
      if w.sockets.owner qmiCon.clientFd = some req.sender then recordRsp qmiCon bytes else qmiCon

/-- Whatever the modem answers to the oldest unanswered request goes where it belongs. -/
def Routed (w : World) : Prop :=
  ∀ req ∈ w.unanswered.head?, ∀ bytes, IsCtlRsp bytes → w.RoutedTo req bytes

/-- The modem answers control requests in the order they were written, and sends no control
indication. -/
def Orderly : Event → Prop
  | .answer i _ => i = 0
  | .unsolicited bytes => ¬ IsCtlInd bytes
  | _ => True

instance : (e : Event) → Decidable (Orderly e)
  | .answer i _ => inferInstanceAs (Decidable (i = 0))
  | .unsolicited bytes => inferInstanceAs (Decidable (¬ IsCtlInd bytes))
  | .accept _ | .hangup _ | .request _ _ => isTrue trivial

/-- The steps after which answers can still be told apart. -/
def RoutingOk (w : World) : Event → Prop
  | .hangup fd => w.CleanHangup (.hangup fd)
  | .request _ bytes => IsCtlRequest bytes → w.queue = [] → w.unanswered = []
  | _ => True

instance (w : World) : (e : Event) → Decidable (w.RoutingOk e)
  | .hangup fd => inferInstanceAs (Decidable (w.CleanHangup (.hangup fd)))
  | .request _ bytes =>
      inferInstanceAs (Decidable (IsCtlRequest bytes → w.queue = [] → w.unanswered = []))
  | .accept _ | .answer _ _ | .unsolicited _ => isTrue trivial

/-- What such steps keep: the unanswered request is the head of the queue, or it is the request of
a client that is gone and the queue is empty. -/
structure RouteInv (w : World) : Prop where
  inv : w.Inv
  queueInv : QueueInv w
  tracked : w.unanswered = w.queue.head?.toList.map (·.qmi) ∨
    w.queue = [] ∧ ∃ m, w.unanswered = [m] ∧ ¬ w.sockets.Alive m.sender
  known : ∀ m ∈ w.unanswered, m.sender < w.sockets.next

/-! ### The invariant routes answers -/

theorem receivers_append (t : SocketTable) (as bs : List Action) :
    receivers t (as ++ bs) = receivers t as ++ receivers t bs := by
  induction as with
  | nil => rfl
  | cons a as ih =>
      cases a with
      | toDev m => exact ih
      | close fd => exact ih
      | toClient fd bytes =>
          simp only [List.cons_append, receivers, ih]
          cases t.owner fd <;> rfl

theorem receivers_sendHead (t : SocketTable) (p : Proxy) : receivers t (sendHead p) = [] := by
  have hdev : ∀ acts : List Action, (∀ a ∈ acts, ∃ m, a = .toDev m) → receivers t acts = [] := by
    intro acts
    induction acts with
    | nil => intro _; rfl
    | cons a acts ih =>
        intro h
        obtain ⟨m, rfl⟩ := h a (List.mem_cons_self ..)
        exact ih fun b hb => h b (List.mem_cons_of_mem _ hb)
  refine hdev _ fun a ha => ?_
  unfold sendHead at ha
  split at ha
  · simp at ha
  · obtain ⟨c, -, hc⟩ := List.mem_flatMap.1 ha
    exact ⟨_, List.mem_singleton.1 hc⟩

/-- A response from the device is handled by `answerHead` and `sendHead`. -/
theorem recvQmiFromDev_rsp {p : Proxy} (hs : 0 < p.qmiProxyServerFd) {bytes : List UInt8}
    (hr : IsCtlRsp bytes) :
    recvQmiFromDev p bytes =
      ((answerHead p bytes).1, (answerHead p bytes).2 ++ sendHead (answerHead p bytes).1) := by
  have hne : ¬ p.qmiProxyServerFd = -1 := by omega
  simp only [recvQmiFromDev, hne, hr.1, hr.2, if_false, if_true]

/-- With a request in the queue, the answer goes to the client of the head. -/
theorem routedTo_head {w : World} (hi : w.Inv) (hq : QueueInv w) {q : QmiProxyMsg}
    {rest : List QmiProxyMsg} (hl : w.queue = q :: rest) {bytes : List UInt8}
    (hr : IsCtlRsp bytes) : w.RoutedTo q.qmi bytes := by
  have hmem : (q.clientFd, q.qmi.sender) ∈ w.sockets.entries :=
    hq.mem_sockets (hl ▸ List.mem_cons_self ..)
  have hown : w.sockets.owner q.clientFd = some q.qmi.sender :=
    SocketTable.owner_eq_some_iff.2 hmem
  have hfd : q.clientFd ∈ w.proxy.fds := hi.linked ▸ SocketTable.mem_fds_iff.2 ⟨_, hmem⟩
  have hlist : w.proxy.qmiProxyCtlMsg = q :: rest := hl
  have hanswer : (answerHead w.proxy bytes).2 = sendQmiToClient bytes q.clientFd := by
    simp only [answerHead, hlist]
    rw [flatMap_filter_fds hi.fds_nodup, if_pos hfd]
  constructor
  · have halive : w.sockets.Alive q.qmi.sender := SocketTable.alive_iff.2 ⟨_, hmem⟩
    rw [recvQmiFromDev_rsp hi.serverOpen hr, receivers_append, receivers_sendHead, hanswer,
      List.append_nil, if_pos halive]
    simp only [sendQmiToClient, receivers, hown]
  · rw [recvQmiFromDev_rsp hi.serverOpen hr]
    simp only [answerHead, hlist]
    refine List.map_congr_left fun qmiCon _ => ?_
    have hiff : qmiCon.clientFd = q.clientFd ↔
        w.sockets.owner qmiCon.clientFd = some q.qmi.sender := by
      constructor
      · intro h
        rw [h, hown]
      · intro h
        exact SocketTable.fd_unique (SocketTable.owner_eq_some_iff.1 h) hmem
    by_cases h : qmiCon.clientFd = q.clientFd
    · rw [if_pos h, if_pos (hiff.1 h)]
    · rw [if_neg h, if_neg fun h' => h (hiff.2 h')]

/-- With an empty queue, the answer to a client that is gone goes nowhere. -/
theorem routedTo_nobody {w : World} (hi : w.Inv) (hl : w.queue = []) {m : Msg}
    (hgone : ¬ w.sockets.Alive m.sender) {bytes : List UInt8} (hr : IsCtlRsp bytes) :
    w.RoutedTo m bytes := by
  have hlist : w.proxy.qmiProxyCtlMsg = [] := hl
  constructor
  · rw [recvQmiFromDev_rsp hi.serverOpen hr, receivers_append, receivers_sendHead, if_neg hgone]
    simp only [answerHead, hlist, receivers, List.append_nil]
  · rw [recvQmiFromDev_rsp hi.serverOpen hr]
    simp only [answerHead, hlist]
    refine ((List.map_congr_left fun qmiCon _ => ?_).trans (List.map_id _)).symm
    -- no open descriptor belongs to the client that is gone
    refine if_neg fun h => hgone ?_
    exact SocketTable.alive_iff.2 ⟨_, SocketTable.owner_eq_some_iff.1 h⟩

theorem RouteInv.routed {w : World} (h : RouteInv w) : Routed w := by
  intro req hreq bytes hr
  rcases h.tracked with hhead | ⟨hempty, m, hm, hgone⟩
  · cases hl : w.queue with
    | nil => simp [hhead, hl] at hreq
    | cons q rest =>
        rw [hhead, hl, List.head?_cons, Option.toList_some, List.map_singleton, List.head?_cons,
          Option.mem_some_iff] at hreq
        subst hreq
        exact routedTo_head h.inv h.queueInv hl hr
  · rw [hm, List.head?_cons, Option.mem_some_iff] at hreq
    subst hreq
    exact routedTo_nobody h.inv hempty hgone hr

/-! ### Steps that keep the invariant -/

theorem routeInv_accept {w : World} (h : RouteInv w) (fd : ℤ) (hfd : fd ∉ w.sockets.fds) :
    RouteInv (w.afterAccept fd hfd) where
  inv := inv_accept h.inv fd hfd
  queueInv := queueInv_accept h.inv h.queueInv fd hfd
  tracked := by
    refine h.tracked.imp id ?_
    rintro ⟨hempty, m, hm, hgone⟩
    refine ⟨hempty, m, hm, fun halive => ?_⟩
    -- the new connection is none of those that have sent a request
    have hlt : m.sender < w.sockets.next := h.known m (hm ▸ List.mem_singleton.2 rfl)
    rcases (SocketTable.alive_accept (h := hfd)).1 halive with halive | heq
    · exact hgone halive
    · omega
  known := fun m hm => Nat.lt_succ_of_lt (h.known m hm)

theorem routeInv_request {w : World} (h : RouteInv w) {fd : ℤ} {c : ℕ}
    (hfd : (fd, c) ∈ w.sockets.entries) {bytes : List UInt8} (hb : qcqmiHdrSize ≤ qmiSize bytes)
    (hok : w.RoutingOk (.request fd bytes)) : RouteInv (w.afterRequest fd c bytes) := by
  have hqueue := afterRequest_queue h.inv fd c bytes
  have hun := @afterRequest_unanswered w h.inv fd c bytes hb
  have hsock : (w.afterRequest fd c bytes).sockets = w.sockets := rfl
  refine
    { inv := inv_request h.inv c hb
      queueInv := queueInv_request h.inv h.queueInv hfd hb
      tracked := ?_, known := ?_ }
  · rw [hqueue, hun, hsock]
    by_cases hc : IsCtlRequest bytes
    · left
      cases hl : w.queue with
      | nil =>
          -- the modem owes nothing, so this request is the only unanswered one
          simp [hc, requestWrites, hl, hok hc hl]
      | cons q rest =>
          rcases h.tracked with hhead | ⟨hempty, -⟩
          · simp [hc, requestWrites, hl, hhead]
          · simp [hl] at hempty
    · simpa [hc, requestWrites] using h.tracked
  · intro m hm
    rw [hun] at hm
    rcases List.mem_append.1 hm with hm | hm
    · exact h.known m hm
    · rw [eq_of_mem_requestWrites hm]
      exact w.sockets.ids_lt _ hfd

theorem routeInv_hangup {w : World} (h : RouteInv w) {fd : ℤ} (hfd : fd ∈ w.sockets.fds)
    (hclean : w.CleanHangup (.hangup fd)) : RouteInv (w.afterHangup fd) := by
  have hqueue := afterHangup_queue h.inv hfd
  have hun : (w.afterHangup fd).unanswered = w.unanswered := rfl
  have hsock : (w.afterHangup fd).sockets = w.sockets.close fd := rfl
  obtain ⟨c, hc⟩ := SocketTable.mem_fds_iff.1 hfd
  refine
    { inv := inv_hangup h.inv hfd
      queueInv := queueInv_hangup h.inv h.queueInv hfd hclean
      tracked := ?_
      known := h.known }
  rw [hqueue, hun, hsock]
  rcases h.tracked with hhead | ⟨hempty, m, hm, hgone⟩
  · cases hl : w.queue with
    | nil => simp [hhead, hl]
    | cons q rest =>
        by_cases hq : q.clientFd = fd
        · -- the outstanding request goes with its client, and the queue is empty
          right
          have hone := hclean.2 (by simp [hl, hq])
          rw [hl, List.length_cons] at hone
          have hrest : rest = [] := List.length_eq_zero_iff.1 (by omega)
          have hmem : (q.clientFd, q.qmi.sender) ∈ w.sockets.entries :=
            h.queueInv.mem_sockets (hl ▸ List.mem_cons_self ..)
          refine ⟨by simp [hq, hrest], q.qmi, by simp [hhead, hl], fun halive => ?_⟩
          exact ((SocketTable.alive_close (hq ▸ hmem)).1 halive).2 rfl
        · left
          rw [hhead, hl, List.eraseP_cons_of_neg (by simpa using hq)]
          simp
  · right
    refine ⟨by simp [hempty], m, hm, fun halive => hgone ?_⟩
    exact ((SocketTable.alive_close hc).1 halive).1

theorem routeInv_answer {w : World} (h : RouteInv w) {bytes : List UInt8} (hr : IsCtlRsp bytes) :
    RouteInv (w.afterDev bytes (w.unanswered.eraseIdx 0)) := by
  have hsub : ∀ m ∈ w.unanswered.eraseIdx 0, m ∈ w.unanswered :=
    fun m hm => List.mem_of_mem_eraseIdx hm
  have hi' := inv_dev h.inv bytes hsub
  have hq' := queueInv_dev h.inv h.queueInv bytes hsub fun hn => absurd hr hn
  have hdev := devWrites_eq_head hi' hr.1 fun q hq => hq'.mem_sockets hq
  -- in both cases one request is unanswered at most
  have hleft : w.unanswered.eraseIdx 0 = [] := by
    rcases h.tracked with hhead | ⟨-, m, hm, -⟩
    · rw [hhead]
      cases w.queue <;> rfl
    · rw [hm]
      rfl
  refine
    { inv := hi'
      queueInv := hq'
      tracked := Or.inl ?_
      known := ?_ }
  · rw [afterDev_unanswered h.inv, hdev, hleft, List.nil_append]
  · intro m hm
    rw [afterDev_unanswered h.inv, hdev, hleft, List.nil_append] at hm
    obtain ⟨q, hq, rfl⟩ := List.mem_map.1 hm
    have hmem := hq'.mem_sockets (List.mem_of_mem_head? (Option.mem_toList.1 hq))
    exact w.sockets.ids_lt _ hmem

/-- A service message leaves the queue and the control traffic alone. -/
theorem routeInv_service {w : World} (h : RouteInv w) {bytes : List UInt8}
    (ht : qmiHdrQmiType bytes ≠ qmuxTypeCtl) : RouteInv (w.afterDev bytes w.unanswered) := by
  have hr : ¬ IsCtlRsp bytes := fun hr => ht hr.1
  have hqueue := afterDev_queue h.inv bytes w.unanswered
  rw [if_neg hr] at hqueue
  have hun : (w.afterDev bytes w.unanswered).unanswered = w.unanswered := by
    rw [afterDev_unanswered h.inv, devWrites, if_neg ht, List.append_nil]
  have hsock : (w.afterDev bytes w.unanswered).sockets = w.sockets := rfl
  refine
    { inv := inv_dev h.inv bytes fun m hm => hm
      queueInv := queueInv_dev h.inv h.queueInv bytes (fun m hm => hm) fun _ => rfl
      tracked := ?_, known := ?_ }
  · rw [hqueue, hun, hsock]
    exact h.tracked
  · rw [hun, hsock]
    exact h.known

theorem routeInv_step {w w' : World} {e : Event} (hr : RouteInv w)
    (hok : Orderly e ∧ w.RoutingOk e) (h : w.step e = some w') : RouteInv w' := by
  obtain ⟨-, h⟩ := step_cases h
  cases e with
  | accept fd =>
      obtain ⟨-, hfd, rfl⟩ := h
      exact routeInv_accept hr fd hfd
  | hangup fd =>
      obtain ⟨hfd, rfl⟩ := h
      exact routeInv_hangup hr hfd hok.2
  | request fd bytes =>
      obtain ⟨c, hfd, hb, rfl⟩ := h
      exact routeInv_request hr hfd hb hok.2
  | answer i bytes =>
      obtain ⟨-, hrsp, rfl⟩ := h
      have hfirst : i = 0 := hok.1
      subst hfirst
      exact routeInv_answer hr hrsp
  | unsolicited bytes =>
      obtain ⟨hrsp, rfl⟩ := h
      have hind : ¬ IsCtlInd bytes := hok.1
      exact routeInv_service hr fun ht => hind ⟨ht, fun hf => hrsp ⟨ht, hf⟩⟩

/-! ### Whole runs -/

theorem routeInv_start (serverFd : {fd : ℤ // 0 < fd}) : RouteInv (start serverFd) where
  inv := inv_start serverFd
  queueInv := queueInv_start serverFd
  tracked := Or.inl rfl
  known := by simp [start]

/-- **Every answer reaches the client whose request it answers, and no other**, all along a run in
which clients go away cleanly and no request is taken into an empty queue while the modem owes an
answer. -/
theorem routed_of_routingOk (serverFd : {fd : ℤ // 0 < fd}) (evs : List Event)
    (horderly : ∀ e ∈ evs, Orderly e)
    (hok : ∀ p ∈ EventRun.moves step (start serverFd) evs, p.1.RoutingOk p.2) :
    ∀ w ∈ EventRun.states step (start serverFd) evs, Routed w := fun w hw =>
  (EventRun.guarded_invariant RouteInv (fun w e => Orderly e ∧ w.RoutingOk e)
    (fun _ _ _ hr h hs => routeInv_step hr h hs) (routeInv_start serverFd)
    (fun p hp => ⟨horderly _ (EventRun.mem_of_mem_moves hp), hok p hp⟩) w hw).routed

/-- Two clients ask for a client id; the second leaves while its request waits, a third gets its
descriptor and asks in turn, and the first leaves while its request is outstanding. -/
def leavingClients : List Event :=
  [.accept 5, .accept 6, .request 5 (getClientIdReq 1 1), .request 6 (getClientIdReq 1 2),
    .hangup 6, .accept 6, .answer 0 (getClientIdResp 1 1 7), .request 6 (getClientIdReq 1 3),
    .hangup 5, .answer 0 (getClientIdResp 1 3 9), .request 6 (getClientIdReq 2 4), .hangup 6]

theorem routed_leavingClients :
    (∀ p ∈ EventRun.moves step (start sampleServerFd) leavingClients, p.1.RoutingOk p.2) ∧
      ∀ w ∈ EventRun.states step (start sampleServerFd) leavingClients, Routed w := by
  have hok : ∀ p ∈ EventRun.moves step (start sampleServerFd) leavingClients,
      p.1.RoutingOk p.2 := by
    decide +kernel
  exact ⟨hok, routed_of_routingOk sampleServerFd leavingClients (by decide) hok⟩

/-- After the client with the outstanding request has gone, the answer to it is given to the next
client in the queue. -/
theorem not_routed : ¬ ∀ (serverFd : {fd : ℤ // 0 < fd}) (evs : List Event),
    (∀ e ∈ evs, Orderly e) → ∀ w ∈ EventRun.states step (start serverFd) evs, Routed w := by
  intro hall
  have hwrong : ∃ w ∈ EventRun.states step (start sampleServerFd) headLeaves,
      ∃ req ∈ w.unanswered, w.unanswered.head? = some req ∧
        receivers w.sockets (recvQmiFromDev w.proxy (getClientIdResp 1 1 7)).2 ≠
          if w.sockets.Alive req.sender then [(req.sender, getClientIdResp 1 1 7)] else [] := by
    decide +kernel
  obtain ⟨w, hw, req, -, hreq, hno⟩ := hwrong
  exact hno (hall _ headLeaves (by decide) w hw req hreq (getClientIdResp 1 1 7)
    (by decide)).delivered

end World

end QmiProxy

/-
**The queue of control requests.**

The proxy lets one control request be outstanding at the modem and queues the others.  The queue is
served as long as two things hold: its entries belong to connected clients, and its head has been
written and not been answered.  This module finds exactly which runs keep them.

Clients, answers in any order and indications at any time do no harm.  A client that goes away can:
`cleanup_qmi_connection` takes only the first of its requests from the queue, and takes the head
without writing the next one.

* `QmiProxy.World.QueueInv` — the two things;
* `QmiProxy.World.CleanHangup` — a client that goes away has at most one request in the queue, and
  if that is the outstanding one, no other request waits behind it;
* `QmiProxy.World.queueInv_iff` — **the queue is served all along a run exactly when every client
  that goes away in it does so cleanly**;
* `QmiProxy.World.not_queueInv` — a run that leaves the queue without an outstanding request.
-/
import OpenwrtPackage.QmiProxy.World

set_option relaxedAutoImplicit false
set_option autoImplicit false

namespace QmiProxy

open Qmi

namespace World

/-- The queue of control requests is in order. -/
structure QueueInv (w : World) : Prop where
  /-- every entry belongs to a connection in `qmi_proxy_connection` -/
  owned : ∀ q ∈ w.queue, ∃ qmiCon ∈ w.proxy.qmiProxyConnection,
    qmiCon.clientFd = q.clientFd ∧ (qmiCon.clientFd, q.qmi.sender) ∈ w.sockets.entries
  /-- the head has been written to the device and is not yet answered -/
  outstanding : ∀ q ∈ w.queue.head?, q.qmi ∈ w.written ∧ q.qmi ∈ w.unanswered
  /-- while a request is in the queue, the device owes an answer -/
  served : w.queue ≠ [] → w.unanswered ≠ []

/-- The client that goes away has at most one request in the queue, and nothing waits behind it if
it is the outstanding one.  Other events are not restricted. -/
def CleanHangup (w : World) : Event → Prop
  | .hangup fd =>
      w.queue.countP (fun q => q.clientFd = fd) ≤ 1 ∧
        (w.queue.head?.map (·.clientFd) = some fd → w.queue.length = 1)
  | _ => True

instance (w : World) : (e : Event) → Decidable (w.CleanHangup e)
  | .hangup fd =>
      inferInstanceAs (Decidable (w.queue.countP (fun q => q.clientFd = fd) ≤ 1 ∧
        (w.queue.head?.map (·.clientFd) = some fd → w.queue.length = 1)))
  | .accept _ | .request _ _ | .answer _ _ | .unsolicited _ => isTrue trivial

/-- The connection of an entry, found through its descriptor. -/
theorem exists_connection {w : World} (hi : w.Inv) {fd : ℤ} {c : ℕ}
    (h : (fd, c) ∈ w.sockets.entries) :
    ∃ qmiCon ∈ w.proxy.qmiProxyConnection,
      qmiCon.clientFd = fd ∧ (qmiCon.clientFd, c) ∈ w.sockets.entries := by
  have hfd : fd ∈ w.proxy.fds := hi.linked ▸ SocketTable.mem_fds_iff.2 ⟨c, h⟩
  obtain ⟨qmiCon, hmem, rfl⟩ := List.mem_map.1 hfd
  exact ⟨qmiCon, hmem, rfl, h⟩

/-- The two facts that make up `QueueInv`, in the terms of the descriptor table. -/
theorem queueInv_of {w : World} (hi : w.Inv)
    (howned : ∀ q ∈ w.queue, (q.clientFd, q.qmi.sender) ∈ w.sockets.entries)
    (hhead : ∀ q ∈ w.queue.head?, q.qmi ∈ w.unanswered) : QueueInv w where
  owned q hq := exists_connection hi (howned q hq)
  outstanding q hq := ⟨hi.unansweredWritten _ (hhead q hq), hhead q hq⟩
  served hne hnil := by
    obtain ⟨q, hq⟩ := Option.isSome_iff_exists.1 (List.isSome_head?.2 hne)
    have := hhead q hq
    simp [hnil] at this

theorem QueueInv.mem_sockets {w : World} (h : QueueInv w) {q : QmiProxyMsg} (hq : q ∈ w.queue) :
    (q.clientFd, q.qmi.sender) ∈ w.sockets.entries := by
  obtain ⟨qmiCon, -, hfd, hmem⟩ := h.owned q hq
  rwa [hfd] at hmem

/-! ### Steps that keep the queue in order -/

theorem queueInv_accept {w : World} (hi : w.Inv) (hq : QueueInv w) (fd : ℤ)
    (h : fd ∉ w.sockets.fds) : QueueInv (w.afterAccept fd h) :=
  queueInv_of (inv_accept hi fd h)
    (fun _ hmem => (SocketTable.mem_accept (h := h)).2 (Or.inl (hq.mem_sockets hmem)))
    (fun q hmem => (hq.outstanding q hmem).2)

theorem queueInv_request {w : World} (hi : w.Inv) (hq : QueueInv w) {fd : ℤ} {c : ℕ}
    (hfd : (fd, c) ∈ w.sockets.entries) {bytes : List UInt8} (hb : qcqmiHdrSize ≤ qmiSize bytes) :
    QueueInv (w.afterRequest fd c bytes) := by
  have hqueue := afterRequest_queue hi fd c bytes
  have hun := @afterRequest_unanswered w hi fd c bytes hb
  refine queueInv_of (inv_request hi c hb) ?_ ?_
  · intro q hmem
    have hsock : (w.afterRequest fd c bytes).sockets = w.sockets := rfl
    rw [hsock]
    rcases mem_afterRequest_queue hi hmem with hmem | ⟨-, rfl⟩
    · exact hq.mem_sockets hmem
    · exact hfd
  · intro q hmem
    rw [hun]
    rw [hqueue] at hmem
    by_cases hc : IsCtlRequest bytes
    · rw [if_pos hc] at hmem
      cases hl : w.queue with
      | nil =>
          -- nothing is outstanding, so the request is written at once
          have hnew : w.requestWrites c bytes = [wire ⟨bytes, c, w.serial⟩] := by
            simp [requestWrites, hc, hl]
          rw [hl, List.nil_append, List.head?_cons, Option.mem_some_iff] at hmem
          rw [hnew, ← hmem]
          exact List.mem_append_right _ (List.mem_singleton.2 rfl)
      | cons r rest =>
          rw [hl, List.cons_append, List.head?_cons, Option.mem_some_iff] at hmem
          refine List.mem_append_left _ (hq.outstanding q ?_).2
          rw [hl, List.head?_cons, Option.mem_some_iff]
          exact hmem
    · rw [if_neg hc] at hmem
      exact List.mem_append_left _ (hq.outstanding q hmem).2

/-- After a control message from the device the new head of the queue has just been written, if its
client is connected. -/
theorem devWrites_eq_head {w : World} {bytes : List UInt8} {left : List Msg}
    (hi : (w.afterDev bytes left).Inv) (ht : qmiHdrQmiType bytes = qmuxTypeCtl)
    (howned : ∀ q ∈ (w.afterDev bytes left).queue,
      (q.clientFd, q.qmi.sender) ∈ w.sockets.entries) :
    w.devWrites bytes = (w.afterDev bytes left).queue.head?.toList.map (·.qmi) := by
  have hfds : (recvQmiFromDev w.proxy bytes).1.fds = w.sockets.fds := hi.linked
  have hqueue : (w.afterDev bytes left).queue = (recvQmiFromDev w.proxy bytes).1.qmiProxyCtlMsg :=
    rfl
  rw [hqueue] at howned ⊢
  unfold devWrites headWrite
  rw [if_pos ht]
  cases hl : (recvQmiFromDev w.proxy bytes).1.qmiProxyCtlMsg with
  | nil => rfl
  | cons q rest =>
      have hmem : q.clientFd ∈ w.sockets.fds :=
        SocketTable.mem_fds_iff.2 ⟨_, howned q (by rw [hl]; exact List.mem_cons_self ..)⟩
      simp [hfds, hmem]

theorem queueInv_dev {w : World} (hi : w.Inv) (hq : QueueInv w) (bytes : List UInt8)
    {left : List Msg} (hleft : ∀ m ∈ left, m ∈ w.unanswered)
    (hsame : ¬ IsCtlRsp bytes → left = w.unanswered) : QueueInv (w.afterDev bytes left) := by
  have hi' := inv_dev hi bytes hleft
  have hsub : ∀ q ∈ (w.afterDev bytes left).queue, q ∈ w.queue := by
    intro q hmem
    rw [afterDev_queue hi] at hmem
    split at hmem
    · exact List.mem_of_mem_tail hmem
    · exact hmem
  refine queueInv_of hi' (fun q hmem => hq.mem_sockets (hsub q hmem)) fun q hmem => ?_
  rw [afterDev_unanswered hi]
  by_cases ht : qmiHdrQmiType bytes = qmuxTypeCtl
  · refine List.mem_append_right _ ?_
    rw [devWrites_eq_head hi' ht fun r hr => hq.mem_sockets (hsub r hr)]
    exact List.mem_map.2 ⟨q, Option.mem_toList.2 hmem, rfl⟩
  · -- a service message touches neither the queue nor the control traffic
    have hr : ¬ IsCtlRsp bytes := fun h => ht h.1
    rw [afterDev_queue hi, if_neg hr] at hmem
    rw [hsame hr]
    exact List.mem_append_left _ (hq.outstanding q hmem).2

theorem queueInv_hangup {w : World} (hi : w.Inv) (hq : QueueInv w) {fd : ℤ}
    (h : fd ∈ w.sockets.fds) (hclean : w.CleanHangup (.hangup fd)) :
    QueueInv (w.afterHangup fd) := by
  obtain ⟨hcount, hhead⟩ := hclean
  have hqueue := afterHangup_queue hi h
  -- the client had one request at most, and that has been taken out
  have hnone : ∀ q ∈ (w.afterHangup fd).queue, q.clientFd ≠ fd := by
    intro q hmem hfd
    rw [hqueue] at hmem
    have hpos : 0 < (w.queue.eraseP fun q => q.clientFd = fd).countP fun q => q.clientFd = fd :=
      List.countP_pos_iff.2 ⟨q, hmem, by simpa using hfd⟩
    rw [Keyed.countP_eraseP] at hpos
    omega
  refine queueInv_of (inv_hangup hi h) ?_ ?_
  · intro q hmem
    have hold : q ∈ w.queue := by
      rw [hqueue] at hmem
      exact List.mem_of_mem_eraseP hmem
    exact SocketTable.mem_close.2 ⟨hq.mem_sockets hold, hnone q hmem⟩
  · intro q hmem
    have hun : (w.afterHangup fd).unanswered = w.unanswered := rfl
    rw [hun]
    rw [hqueue] at hmem
    cases hl : w.queue with
    | nil => simp [hl] at hmem
    | cons r rest =>
        by_cases hr : r.clientFd = fd
        · have hone := hhead (by simp [hl, hr])
          rw [hl, List.length_cons] at hone
          have hrest : rest = [] := List.length_eq_zero_iff.1 (by omega)
          rw [hl, List.eraseP_cons_of_pos (by simpa using hr), hrest] at hmem
          simp at hmem
        · rw [hl, List.eraseP_cons_of_neg (by simpa using hr), List.head?_cons,
            Option.mem_some_iff] at hmem
          refine (hq.outstanding q ?_).2
          rw [hl, List.head?_cons, Option.mem_some_iff]
          exact hmem

theorem queueInv_step {w w' : World} {e : Event} (hi : w.Inv) (hq : QueueInv w)
    (hclean : w.CleanHangup e) (h : w.step e = some w') : QueueInv w' := by
  obtain ⟨-, h⟩ := step_cases h
  cases e with
  | accept fd =>
      obtain ⟨-, hfd, rfl⟩ := h
      exact queueInv_accept hi hq fd hfd
  | hangup fd =>
      obtain ⟨hfd, rfl⟩ := h
      exact queueInv_hangup hi hq hfd hclean
  | request fd bytes =>
      obtain ⟨c, hfd, hb, rfl⟩ := h
      exact queueInv_request hi hq hfd hb
  | answer i bytes =>
      obtain ⟨-, hr, rfl⟩ := h
      exact queueInv_dev hi hq bytes (fun m hm => List.mem_of_mem_eraseIdx hm)
        (fun hn => absurd hr hn)
  | unsolicited bytes =>
      obtain ⟨-, rfl⟩ := h
      exact queueInv_dev hi hq bytes (fun m hm => hm) (fun _ => rfl)

/-! ### Steps that do not -/

/-- A client that goes away with two requests in the queue leaves one behind; one that goes away
with the outstanding request leaves a head that was never written. -/
theorem not_queueInv_hangup {w : World} (hi : w.Inv) {fd : ℤ} (h : fd ∈ w.sockets.fds)
    (hdirty : ¬ w.CleanHangup (.hangup fd)) : ¬ QueueInv (w.afterHangup fd) := by
  intro hq
  have hqueue := afterHangup_queue hi h
  have hnone : ∀ q ∈ (w.afterHangup fd).queue, q.clientFd ≠ fd := by
    intro q hmem
    exact (SocketTable.mem_close.1 (hq.mem_sockets hmem)).2
  refine hdirty ⟨?_, fun hhead => ?_⟩
  · by_contra htwo
    have hleft : 0 < (w.queue.eraseP fun q => q.clientFd = fd).countP fun q => q.clientFd = fd := by
      rw [Keyed.countP_eraseP]
      omega
    obtain ⟨q, hmem, hfd⟩ := List.countP_pos_iff.1 hleft
    exact hnone q (hqueue ▸ hmem) (by simpa using hfd)
  · cases hl : w.queue with
    | nil => simp [hl] at hhead
    | cons r rest =>
        have hr : r.clientFd = fd := by simpa [hl] using hhead
        cases hrest : rest with
        | nil => rfl
        | cons s rest =>
            -- `s` is the head now, but requests behind the head are not written
            exfalso
            rw [hl, List.eraseP_cons_of_pos (by simpa using hr), hrest] at hqueue
            have hw : s.qmi ∈ w.written :=
              (hq.outstanding s (by rw [hqueue, List.head?_cons]; exact Option.mem_some_self _)).1
            have hlt := hi.ahead s (by rw [hl, hrest]; exact List.mem_cons_self ..) s.qmi hw
            exact Nat.lt_irrefl _ hlt

theorem not_queueInv_step {w w' : World} {e : Event} (hi : w.Inv) (hdirty : ¬ w.CleanHangup e)
    (h : w.step e = some w') : ¬ QueueInv w' := by
  obtain ⟨-, h⟩ := step_cases h
  cases e with
  | hangup fd =>
      obtain ⟨hfd, rfl⟩ := h
      exact not_queueInv_hangup hi hfd hdirty
  | accept fd => exact absurd trivial hdirty
  | request fd bytes => exact absurd trivial hdirty
  | answer i bytes => exact absurd trivial hdirty
  | unsolicited bytes => exact absurd trivial hdirty

/-! ### Whole runs -/

theorem queueInv_start (serverFd : {fd : ℤ // 0 < fd}) : QueueInv (start serverFd) :=
  queueInv_of (inv_start serverFd) (by simp [start, queue]) (by simp [start, queue])

/-- **The queue is in order all along a run exactly when every client that goes away in it does so
cleanly.** -/
theorem queueInv_iff (serverFd : {fd : ℤ // 0 < fd}) (evs : List Event) :
    (∀ w ∈ EventRun.states step (start serverFd) evs, QueueInv w) ↔
      ∀ p ∈ EventRun.moves step (start serverFd) evs, p.1.CleanHangup p.2 :=
  EventRun.holds_iff (fun w => w.Inv ∧ QueueInv w) QueueInv (fun _ _ => True) CleanHangup
    (fun _ h => h.2)
    (fun _ _ _ h _ hok hs => ⟨inv_step h.1 hs, queueInv_step h.1 h.2 hok hs⟩)
    (fun _ _ _ h _ hno hs => not_queueInv_step h.1 hno hs)
    ⟨inv_start serverFd, queueInv_start serverFd⟩ (fun _ _ => trivial)

/-- Two clients ask for a client id, and the one whose request is outstanding goes away. -/
def headLeaves : List Event :=
  [.accept 5, .accept 6, .request 5 (getClientIdReq 1 1), .request 6 (getClientIdReq 1 1),
    .hangup 5]

/-- The other client's request is then the head of the queue and has not been written. -/
theorem not_queueInv : ¬ ∀ (serverFd : {fd : ℤ // 0 < fd}) (evs : List Event),
    ∀ w ∈ EventRun.states step (start serverFd) evs, QueueInv w := by
  intro hall
  have hstuck : ∃ w ∈ EventRun.states step (start sampleServerFd) headLeaves,
      ∃ q ∈ w.queue, w.queue.head? = some q ∧ q.qmi ∉ w.unanswered := by
    decide +kernel
  obtain ⟨w, hw, q, -, hq, hno⟩ := hstuck
  exact hno ((hall _ _ w hw).outstanding q hq).2

end World

end QmiProxy

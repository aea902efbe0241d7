/-
**The order in which control requests reach the modem.**

As long as no client leaves, the proxy is meant to hand the control requests it accepts to the
modem one at a time: in the order they came, each of them once.  `recv_qmi_from_dev` writes the head
of the queue after every control message from the device, and not only after a response.  An
indication that comes while a request is outstanding therefore sends that request again.

* `QmiProxy.World.Forwarded` — the requests written are the first of those accepted, all of them
  once nothing is outstanding, and at most one is unanswered;
* `QmiProxy.World.QuietInd` — no control indication comes while a request is unanswered;
* `QmiProxy.World.forwarded_iff` — **in a run that no client leaves, requests are forwarded in order
  and one at a time exactly when no indication comes in between**;
* `QmiProxy.World.not_forwarded` — a run in which one does.
-/
import OpenwrtPackage.QmiProxy.CtlQueue

set_option relaxedAutoImplicit false
set_option autoImplicit false

namespace QmiProxy

open Qmi

namespace World

/-- Control requests have been forwarded in order, each once, and one at a time. -/
structure Forwarded (w : World) : Prop where
  /-- what has been written is the start of what has been accepted -/
  inOrder : w.written <+: w.requests
  /-- every accepted request has been written once or waits behind the head of the queue -/
  once : w.requests = w.written ++ w.queue.tail.map (·.qmi)
  /-- no two accepted requests are the same -/
  distinct : w.requests.Nodup
  /-- at most one written request is unanswered -/
  single : w.unanswered.length ≤ 1
  /-- once nothing is unanswered, everything has been written -/
  drained : w.unanswered = [] → w.written = w.requests

/-- No control indication comes while a request is unanswered.  Other events are not restricted. -/
def QuietInd (w : World) : Event → Prop
  | .unsolicited bytes => IsCtlInd bytes → w.unanswered = []
  | _ => True

instance (w : World) : (e : Event) → Decidable (w.QuietInd e)
  | .unsolicited bytes => inferInstanceAs (Decidable (IsCtlInd bytes → w.unanswered = []))
  | .accept _ | .hangup _ | .request _ _ | .answer _ _ => isTrue trivial

/-- What the loop keeps while no client leaves: the unanswered request is the head of the queue,
and the others are waiting behind it. -/
structure ForwardInv (w : World) : Prop where
  inv : w.Inv
  queueInv : QueueInv w
  once : w.requests = w.written ++ w.queue.tail.map (·.qmi)
  headOnly : w.unanswered = w.queue.head?.toList.map (·.qmi)
  increasing : w.requests.Pairwise fun m n => m.serial < n.serial
  requestsFresh : ∀ m ∈ w.requests, m.serial < w.serial

theorem ForwardInv.forwarded {w : World} (h : ForwardInv w) : Forwarded w where
  inOrder := ⟨_, h.once.symm⟩
  once := h.once
  distinct := h.increasing.imp fun hlt heq => Nat.ne_of_lt hlt (congrArg Msg.serial heq)
  single := by
    rw [h.headOnly]
    cases w.queue <;> simp
  drained := by
    intro hnil
    have hempty : w.queue = [] := by
      by_contra hne
      exact h.queueInv.served hne hnil
    rw [h.once, hempty]
    simp

theorem forwardInv_accept {w : World} (h : ForwardInv w) (fd : ℤ) (hfd : fd ∉ w.sockets.fds) :
    ForwardInv (w.afterAccept fd hfd) where
  inv := inv_accept h.inv fd hfd
  queueInv := queueInv_accept h.inv h.queueInv fd hfd
  once := h.once
  headOnly := h.headOnly
  increasing := h.increasing
  requestsFresh := h.requestsFresh

theorem afterRequest_requests (w : World) (fd : ℤ) (c : ℕ) (bytes : List UInt8) :
    (w.afterRequest fd c bytes).requests =
      if IsCtlRequest bytes then w.requests ++ [wire ⟨bytes, c, w.serial⟩] else w.requests := rfl

/-- A request that finds the queue empty is written and becomes the head; any other goes to the
end of the queue. -/
theorem forwardInv_request {w : World} (h : ForwardInv w) {fd : ℤ} {c : ℕ}
    (hfd : (fd, c) ∈ w.sockets.entries) {bytes : List UInt8} (hb : qcqmiHdrSize ≤ qmiSize bytes) :
    ForwardInv (w.afterRequest fd c bytes) := by
  have hreq := afterRequest_requests w fd c bytes
  have hqueue := afterRequest_queue h.inv fd c bytes
  have hwr := @afterRequest_written w h.inv fd c bytes hb
  have hun := @afterRequest_unanswered w h.inv fd c bytes hb
  have hser : (w.afterRequest fd c bytes).serial = w.serial + 1 := rfl
  refine
    { inv := inv_request h.inv c hb
      queueInv := queueInv_request h.inv h.queueInv hfd hb
      once := ?_, headOnly := ?_, increasing := ?_, requestsFresh := ?_ }
  · rw [hreq, hwr, hqueue]
    by_cases hc : IsCtlRequest bytes
    · cases hl : w.queue with
      | nil =>
          have hall := h.once
          rw [hl, List.tail_nil, List.map_nil, List.append_nil] at hall
          simp [hc, requestWrites, hl, hall]
      | cons q rest =>
          have hall := h.once
          rw [hl, List.tail_cons] at hall
          simp [hc, requestWrites, hl, hall]
    · simp [hc, requestWrites, h.once]
  · rw [hun, hqueue, h.headOnly]
    by_cases hc : IsCtlRequest bytes
    · cases hl : w.queue <;> simp [hc, requestWrites, hl]
    · simp [hc, requestWrites]
  · rw [hreq]
    split
    · refine List.pairwise_append.2 ⟨h.increasing, by simp, ?_⟩
      intro m hm n hn
      rw [List.mem_singleton.1 hn]
      exact h.requestsFresh m hm
    · exact h.increasing
  · intro m hm
    rw [hser]
    rw [hreq] at hm
    split at hm
    · rcases List.mem_append.1 hm with hm | hm
      · exact Nat.lt_succ_of_lt (h.requestsFresh m hm)
      · rw [List.mem_singleton.1 hm]
        exact Nat.lt_succ_self _
    · exact Nat.lt_succ_of_lt (h.requestsFresh m hm)

/-- An answer takes the head off the queue and writes the next request. -/
theorem forwardInv_answer {w : World} (h : ForwardInv w) {i : ℕ} (hlt : i < w.unanswered.length)
    {bytes : List UInt8} (hr : IsCtlRsp bytes) :
    ForwardInv (w.afterDev bytes (w.unanswered.eraseIdx i)) := by
  have hsub : ∀ m ∈ w.unanswered.eraseIdx i, m ∈ w.unanswered :=
    fun m hm => List.mem_of_mem_eraseIdx hm
  have hi' := inv_dev h.inv bytes hsub
  have hq' := queueInv_dev h.inv h.queueInv bytes hsub fun hn => absurd hr hn
  have hqueue := afterDev_queue h.inv bytes (w.unanswered.eraseIdx i)
  rw [if_pos hr] at hqueue
  have hdev := devWrites_eq_head hi' hr.1 fun q hq => hq'.mem_sockets hq
  -- the request that is answered was the only unanswered one
  have hleft : w.unanswered.eraseIdx i = [] := by
    have hone : w.unanswered.length ≤ 1 := h.forwarded.single
    refine List.length_eq_zero_iff.1 ?_
    rw [List.length_eraseIdx_of_lt hlt]
    omega
  refine
    { inv := hi'
      queueInv := hq'
      once := ?_, headOnly := ?_
      increasing := h.increasing, requestsFresh := h.requestsFresh }
  · have hreq : (w.afterDev bytes (w.unanswered.eraseIdx i)).requests = w.requests := rfl
    rw [hreq, afterDev_written h.inv, hdev, hqueue, h.once, List.append_assoc]
    cases w.queue.tail <;> rfl
  · rw [afterDev_unanswered h.inv, hdev, hleft, List.nil_append]

/-- An indication that comes while nothing is unanswered, and a service message at any time, find
nothing to write. -/
theorem forwardInv_unsolicited {w : World} (h : ForwardInv w) {bytes : List UInt8}
    (hr : ¬ IsCtlRsp bytes) (hquiet : w.QuietInd (.unsolicited bytes)) :
    ForwardInv (w.afterDev bytes w.unanswered) := by
  have hi' := inv_dev h.inv bytes fun m (hm : m ∈ w.unanswered) => hm
  have hq' := queueInv_dev h.inv h.queueInv bytes (fun m hm => hm) fun _ => rfl
  have hqueue := afterDev_queue h.inv bytes w.unanswered
  rw [if_neg hr] at hqueue
  have hnone : w.devWrites bytes = [] := by
    by_cases ht : qmiHdrQmiType bytes = qmuxTypeCtl
    · -- with nothing unanswered the queue is empty, and there is no head to write
      have hun : w.unanswered = [] := hquiet ⟨ht, fun hf => hr ⟨ht, hf⟩⟩
      have hempty : w.queue = [] := by
        by_contra hne
        exact h.queueInv.served hne hun
      rw [devWrites_eq_head hi' ht fun q hq => hq'.mem_sockets hq, hqueue, hempty]
      rfl
    · rw [devWrites, if_neg ht]
  refine
    { inv := hi'
      queueInv := hq'
      once := ?_, headOnly := ?_
      increasing := h.increasing, requestsFresh := h.requestsFresh }
  · have hreq : (w.afterDev bytes w.unanswered).requests = w.requests := rfl
    rw [hreq, afterDev_written h.inv, hnone, hqueue, List.append_nil]
    exact h.once
  · rw [afterDev_unanswered h.inv, hnone, hqueue, List.append_nil]
    exact h.headOnly

/-- An indication that comes while a request is unanswered writes it a second time. -/
theorem not_forwarded_unsolicited {w : World} (h : ForwardInv w) {bytes : List UInt8}
    (hr : ¬ IsCtlRsp bytes) (hloud : ¬ w.QuietInd (.unsolicited bytes)) :
    ¬ Forwarded (w.afterDev bytes w.unanswered) := by
  intro hf
  have hind : IsCtlInd bytes ∧ w.unanswered ≠ [] := by
    simpa [QuietInd] using hloud
  have hi' := inv_dev h.inv bytes fun m (hm : m ∈ w.unanswered) => hm
  have hq' := queueInv_dev h.inv h.queueInv bytes (fun m hm => hm) fun _ => rfl
  have hqueue := afterDev_queue h.inv bytes w.unanswered
  rw [if_neg hr] at hqueue
  -- the head, which is the unanswered request, is written again and is then owed two answers
  have hsingle := hf.single
  rw [afterDev_unanswered h.inv, devWrites_eq_head hi' hind.1.1 fun q hq => hq'.mem_sockets hq,
    hqueue, ← h.headOnly, List.length_append] at hsingle
  have hpos : 0 < w.unanswered.length := List.length_pos_iff.2 hind.2
  omega

/-- The event is not a client going away. -/
def Stays : Event → Prop
  | .hangup _ => False
  | _ => True

instance : (e : Event) → Decidable (Stays e)
  | .hangup _ => isFalse id
  | .accept _ | .request _ _ | .answer _ _ | .unsolicited _ => isTrue trivial

theorem forwardInv_step {w w' : World} {e : Event} (hf : ForwardInv w) (hstay : Stays e)
    (hquiet : w.QuietInd e) (h : w.step e = some w') : ForwardInv w' := by
  obtain ⟨-, h⟩ := step_cases h
  cases e with
  | accept fd =>
      obtain ⟨-, hfd, rfl⟩ := h
      exact forwardInv_accept hf fd hfd
  | hangup fd => exact absurd hstay id
  | request fd bytes =>
      obtain ⟨c, hfd, hb, rfl⟩ := h
      exact forwardInv_request hf hfd hb
  | answer i bytes =>
      obtain ⟨hlt, hr, rfl⟩ := h
      exact forwardInv_answer hf hlt hr
  | unsolicited bytes =>
      obtain ⟨hr, rfl⟩ := h
      exact forwardInv_unsolicited hf hr hquiet

theorem not_forwarded_step {w w' : World} {e : Event} (hf : ForwardInv w)
    (hloud : ¬ w.QuietInd e) (h : w.step e = some w') : ¬ Forwarded w' := by
  obtain ⟨-, h⟩ := step_cases h
  cases e with
  | unsolicited bytes =>
      obtain ⟨hr, rfl⟩ := h
      exact not_forwarded_unsolicited hf hr hloud
  | accept fd => exact absurd trivial hloud
  | hangup fd => exact absurd trivial hloud
  | request fd bytes => exact absurd trivial hloud
  | answer i bytes => exact absurd trivial hloud

theorem forwardInv_start (serverFd : {fd : ℤ // 0 < fd}) : ForwardInv (start serverFd) where
  inv := inv_start serverFd
  queueInv := queueInv_start serverFd
  once := rfl
  headOnly := rfl
  increasing := List.Pairwise.nil
  requestsFresh := by simp [start]

/-- **In a run that no client leaves, control requests are forwarded in order, each once and one at
a time, exactly when no control indication comes while a request is unanswered.** -/
theorem forwarded_iff (serverFd : {fd : ℤ // 0 < fd}) (evs : List Event)
    (hstay : ∀ e ∈ evs, Stays e) :
    (∀ w ∈ EventRun.states step (start serverFd) evs, Forwarded w) ↔
      ∀ p ∈ EventRun.moves step (start serverFd) evs, p.1.QuietInd p.2 :=
  EventRun.holds_iff ForwardInv Forwarded (fun _ e => Stays e) QuietInd
    (fun _ h => h.forwarded)
    (fun _ _ _ hf he hok h => forwardInv_step hf he hok h)
    (fun _ _ _ hf _ hno h => not_forwarded_step hf hno h)
    (forwardInv_start serverFd) (fun _ hp => hstay _ (EventRun.mem_of_mem_moves hp))

/-- A `QMICTL_SYNC_IND` of the modem. -/
def syncInd : List UInt8 := [0x01, 11, 0, 0x80, qmuxTypeCtl, 0, 0x02, 0, 0x27, 0, 0, 0]

/-- Two clients ask for a client id, and the modem answers both. -/
def twoRequests : List Event :=
  [.accept 5, .accept 6, .request 5 (getClientIdReq 1 1), .request 6 (getClientIdReq 1 2),
    .answer 0 (getClientIdResp 1 1 7), .answer 0 (getClientIdResp 1 2 8)]

theorem forwarded_twoRequests :
    (∀ p ∈ EventRun.moves step (start sampleServerFd) twoRequests, p.1.QuietInd p.2) ∧
      ∀ w ∈ EventRun.states step (start sampleServerFd) twoRequests, Forwarded w := by
  have hquiet : ∀ p ∈ EventRun.moves step (start sampleServerFd) twoRequests,
      p.1.QuietInd p.2 := by
    decide +kernel
  exact ⟨hquiet, (forwarded_iff sampleServerFd twoRequests (by decide)).2 hquiet⟩

/-- A client asks for a client id, and an indication comes before the answer. -/
def indicationBetween : List Event :=
  [.accept 5, .request 5 (getClientIdReq 1 1), .unsolicited syncInd]

/-- The request has then been written twice. -/
theorem not_forwarded : ¬ ∀ (serverFd : {fd : ℤ // 0 < fd}) (evs : List Event),
    (∀ e ∈ evs, Stays e) → ∀ w ∈ EventRun.states step (start serverFd) evs, Forwarded w := by
  intro hall
  have htwice : ∃ w ∈ EventRun.states step (start sampleServerFd) indicationBetween,
      ¬ w.unanswered.length ≤ 1 := by
    decide +kernel
  obtain ⟨w, hw, hno⟩ := htwice
  exact hno (hall _ indicationBetween (by decide) w hw).single

end World

end QmiProxy

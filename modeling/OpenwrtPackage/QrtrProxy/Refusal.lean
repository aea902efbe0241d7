/-
**Refused requests for a client id.**

A request for a client id is refused when the service is not known, and when no client id is free.
Whether there is one turns out in `alloc_qrtr_client_id`, which at that point has a record for the
client already, and a port; what it returns is looked at only for the answer.

* `QrtrProxy.Refused` — the answer to the request is `QMI_RESULT_FAILURE`;
* `QrtrProxy.RefusedUnchanged` — such a request leaves the clients and the arrays as they were;
* `QrtrProxy.IdLeft` — a client id of a known service is asked for only while one is free;
* `QrtrProxy.recvQmiFromClient_refused` — a refused request changes nothing exactly when it was not
  for want of a client id;
* `QrtrProxy.refusedUnchanged_iff` — **so in every state that the proxy can reach**;
* `QrtrProxy.not_refusedUnchanged` — a client that keeps asking.
-/
import OpenwrtPackage.QrtrProxy.Ids

set_option relaxedAutoImplicit false
set_option autoImplicit false

namespace QrtrProxy

open Qmi Bytes

/-- The message is a `QMICTL_GET_CLIENT_ID_REQ`. -/
def AsksForId (pQMI : List UInt8) : Prop :=
  qmiHdrQmiType pQMI = qmuxTypeCtl ∧ qmictlType pQMI = qmictlGetClientIdReq

/-- The client gets an answer that says `QMI_RESULT_FAILURE`. -/
def Refused (p : Proxy) (clientfd : ℤ) (pQMI : List UInt8) : Prop :=
  ∃ rsp, Action.toClient clientfd rsp ∈ (recvQmiFromClient p pQMI clientfd).2 ∧
    rspQmiResult rsp = qmiResultFailure

/-- The client lists of all connections and the two arrays stay as they were, if the event is a
request for a client id that is refused. -/
def RefusedUnchanged (p : Proxy) : Event → Prop
  | .request clientfd pQMI => AsksForId pQMI → Refused p clientfd pQMI →
      (recvQmiFromClient p pQMI clientfd).1.qrtrProxyConnection = p.qrtrProxyConnection ∧
        (recvQmiFromClient p pQMI clientfd).1.bitmaps = p.bitmaps
  | _ => True

/-- A client id is free. -/
def HasFreeId (b : Bitmaps) : Prop := ∃ id, 1 ≤ id ∧ id < clientBitmapSize ∧ b.client id = 0

/-- A client id of a known service is asked for only while one is free. -/
def IdLeft (p : Proxy) : Event → Prop
  | .request _ pQMI => Allocates p pQMI → HasFreeId p.bitmaps
  | _ => True

/-! ### The answer -/

/-- The result in the answer, as it is sent. -/
theorem rspQmiResult_getClientIdRsp (pQMI : List UInt8) (clientId : UInt8) :
    rspQmiResult ((getClientIdRsp pQMI clientId).take (qmiSize (getClientIdRsp pQMI clientId))) =
      if clientId ≠ 0 then 0 else qmiResultFailure := by
  by_cases hid : clientId = 0
  · simp [hid, getClientIdRsp, ctlRsp, qmiSize, qmiHdrLength, rspQmiResult, qmiResultFailure,
      le16At, byteAt, le16]
  · simp [hid, getClientIdRsp, ctlRsp, qmiSize, qmiHdrLength, rspQmiResult, le16At, byteAt, le16]

/-- The answer says whether there is a client id. -/
theorem refused_getClientIdRsp (pQMI : List UInt8) (clientId : UInt8) (fd : ℤ) :
    (∃ rsp, Action.toClient fd rsp ∈ sendQmiToClient (getClientIdRsp pQMI clientId) fd ∧
      rspQmiResult rsp = qmiResultFailure) ↔ clientId = 0 := by
  have hresult := rspQmiResult_getClientIdRsp pQMI clientId
  constructor
  · rintro ⟨rsp, hrsp, hfailure⟩
    obtain ⟨-, rfl⟩ := Action.toClient.inj (List.mem_singleton.1 hrsp)
    by_contra hid
    rw [hresult, if_pos hid] at hfailure
    exact absurd hfailure (by decide)
  · intro hid
    rw [if_neg (not_not.2 hid)] at hresult
    exact ⟨_, List.mem_singleton_self _, hresult⟩

/-- `alloc_client_id` fails when no cell is free, and then it returns 0. -/
theorem clientId_eq_zero_iff (b : Bitmaps) (qmiType : UInt8) :
    (allocQrtrClientId b qmiType).2.clientId = 0 ↔ ¬ HasFreeId b := by
  unfold allocQrtrClientId allocClientId allocId
  cases hfree : FirstFree.firstFree clientBitmapSize fun id => b.client id ≠ 0 with
  | none =>
      refine iff_of_true rfl ?_
      rintro ⟨id, h1, hlt, hzero⟩
      have htaken := FirstFree.firstFree_none hfree h1 hlt
      exact absurd hzero (of_decide_eq_true htaken)
  | some id =>
      obtain ⟨h1, hlt, hfree⟩ := FirstFree.firstFree_some hfree
      have hzero : b.client id = 0 := by simpa using hfree
      refine iff_of_false ?_ (not_not.2 ⟨id, h1, hlt, hzero⟩)
      intro h0
      have hval := congrArg UInt8.toNat h0
      dsimp only at hval
      rw [UInt8.toNat_ofNat', UInt8.toNat_zero] at hval
      simp only [clientBitmapSize] at hlt
      omega

/-! ### One request -/

/-- A request that adds a client is not one that leaves all of them as they were. -/
theorem connection_ne_of_allocates {p : Proxy} {clientfd : ℤ} {pQMI : List UInt8}
    (hfd : clientfd ∈ p.fds) (h : Allocates p pQMI) :
    (recvQmiFromClient p pQMI clientfd).1.qrtrProxyConnection ≠ p.qrtrProxyConnection := by
  intro heq
  have hlive : (recvQmiFromClient p pQMI clientfd).1.live = p.live := by
    unfold Proxy.live
    rw [heq]
  have hlen := (recvQmiFromClient_allocates hfd h).2.length_eq
  rw [hlive, List.length_cons] at hlen
  omega

/-- **A refused request changes nothing exactly when it was not for want of a client id.** -/
theorem recvQmiFromClient_refused {p : Proxy} {clientfd : ℤ} {pQMI : List UInt8}
    (hfd : clientfd ∈ p.fds) :
    RefusedUnchanged p (.request clientfd pQMI) ↔ IdLeft p (.request clientfd pQMI) := by
  obtain ⟨con, hcon⟩ := exists_connection hfd
  by_cases halloc : Allocates p pQMI
  · obtain ⟨hctl, hget, hsome⟩ := halloc
    obtain ⟨srv, hsrv⟩ := Option.isSome_iff_exists.1 hsome
    have hsync : ¬ qmictlType pQMI = qmictlSyncReq := by
      rw [hget]
      decide
    have hanswer : Refused p clientfd pQMI ↔ ¬ HasFreeId p.bitmaps := by
      rw [← clientId_eq_zero_iff p.bitmaps (reqQmiType pQMI),
        ← refused_getClientIdRsp pQMI _ clientfd]
      unfold Refused recvQmiFromClient
      rw [hcon]
      dsimp only
      rw [if_pos hctl, if_neg hsync, if_pos hget, hsrv]
    constructor
    · intro hunchanged _
      by_contra hnone
      obtain ⟨hsame, -⟩ := hunchanged ⟨hctl, hget⟩ (hanswer.2 hnone)
      exact connection_ne_of_allocates hfd ⟨hctl, hget, hsome⟩ hsame
    · intro hleft _ hrefused
      exact absurd (hleft ⟨hctl, hget, hsome⟩) (hanswer.1 hrefused)
  · refine iff_of_true ?_ fun h => absurd h halloc
    rintro ⟨hctl, hget⟩ -
    -- the service is not known, and the request has no effect
    have hsync : ¬ qmictlType pQMI = qmictlSyncReq := by
      rw [hget]
      decide
    have hsrv : findQrtrService p.qrtrServerList (reqQmiType pQMI) = none := by
      rw [← Option.not_isSome_iff_eq_none]
      exact fun hsome => halloc ⟨hctl, hget, hsome⟩
    unfold recvQmiFromClient
    rw [hcon]
    dsimp only
    rw [if_pos hctl, if_neg hsync, if_pos hget, hsrv]
    exact ⟨rfl, rfl⟩

/-- A step that is taken on a request is taken for a connection. -/
theorem mem_fds_of_step {p p' : Proxy} {clientfd : ℤ} {pQMI : List UInt8}
    (h : step p (.request clientfd pQMI) = some p') : clientfd ∈ p.fds := by
  simp only [step] at h
  split at h
  · next hguard => exact hguard.1
  · cases h

/-! ### Whole runs -/

/-- **In every state that the proxy can reach, a request for a client id that is refused leaves all
clients and both arrays as they were exactly when it was not for want of a client id.** -/
theorem refusedUnchanged_iff (servers : List QrtrService) (evs : List Event) :
    ∀ m ∈ EventRun.moves step (start servers) evs, RefusedUnchanged m.1 m.2 ↔ IdLeft m.1 m.2 := by
  rintro ⟨p, e⟩ hm
  obtain ⟨-, p', hstep⟩ := EventRun.step_of_mem_moves hm
  cases e with
  | request clientfd pQMI => exact recvQmiFromClient_refused (mem_fds_of_step hstep)
  | accept clientfd => exact Iff.rfl
  | hangup clientfd => exact Iff.rfl
  | packet pkt => exact Iff.rfl

/-- A client that has connected asks for a client id of a service that is known. -/
theorem refusedUnchanged_getClientIdReq :
    let servers : List QrtrService := [⟨1, nodeModem, 9, 3, 9⟩]
    let p := acceptQrtrConnection (start servers) 5
    (p, Event.request 5 (getClientIdReq 1 1)) ∈
        EventRun.moves step (start servers) [.accept 5, .request 5 (getClientIdReq 1 1)] ∧
      (RefusedUnchanged p (.request 5 (getClientIdReq 1 1)) ↔
        IdLeft p (.request 5 (getClientIdReq 1 1))) := by
  intro servers p
  have hm : (p, Event.request 5 (getClientIdReq 1 1)) ∈
      EventRun.moves step (start servers) [.accept 5, .request 5 (getClientIdReq 1 1)] :=
    List.mem_cons_of_mem _ List.mem_cons_self
  exact ⟨hm, refusedUnchanged_iff servers _ _ hm⟩

/-- There are never more clients in the array than it has cells for. -/
theorem Tables.length_lt {b : Bitmaps} {live : List QrtrProxyClient} (h : Tables b live) :
    live.length < clientBitmapSize := by
  have hle := FirstFree.length_le_of_forall_lt (n := clientBitmapSize - 1) h.clients.records.nodup
    fun id hid => by
      have hrange := h.clients.records.range id hid
      omega
  rw [List.length_map] at hle
  simp only [clientBitmapSize] at *
  omega

/-- While a client id is free, the arrays have room for a client. -/
theorem Tables.roomLeft {p : Proxy} (h : Tables p.bitmaps p.live) {e : Event} (hleft : IdLeft p e) :
    RoomLeft p e := by
  cases e with
  | request clientfd pQMI =>
      intro halloc
      by_contra hfull
      have hzero := h.alloc_eq_zero (Nat.not_lt.1 hfull) (reqQmiType pQMI)
      exact (clientId_eq_zero_iff p.bitmaps _).1 hzero (hleft halloc)
  | accept clientfd => trivial
  | hangup clientfd => trivial
  | packet pkt => trivial

/-- One client asks for a client id of the same service again and again. -/
theorem not_refusedUnchanged : ¬ ∀ (servers : List QrtrService) (evs : List Event),
    ∀ m ∈ EventRun.moves step (start servers) evs, RefusedUnchanged m.1 m.2 := by
  intro hall
  obtain ⟨servers, evs, q, hq, hlen, -⟩ := exists_live_length_start clientBitmapSize
  have htables : Tables q.bitmaps q.live := by
    refine EventRun.guarded_invariant (fun p => Tables p.bitmaps p.live)
      (fun p e => RefusedUnchanged p e ∧ ∃ p', step p e = some p') ?_ (tables_start servers)
      (fun m hm => ⟨hall servers evs m hm, (EventRun.step_of_mem_moves hm).2⟩) q hq
    rintro p e p' ht ⟨hunchanged, -⟩ hstep
    have hleft : IdLeft p e := by
      cases e with
      | request clientfd pQMI =>
          exact (recvQmiFromClient_refused (mem_fds_of_step hstep)).1 hunchanged
      | accept clientfd => trivial
      | hangup clientfd => trivial
      | packet pkt => trivial
    exact tables_step ht (ht.roomLeft hleft) hstep
  have hlt := htables.length_lt
  omega

end QrtrProxy

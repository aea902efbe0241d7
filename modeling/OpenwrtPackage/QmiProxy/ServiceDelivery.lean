/-
**Which connections get a service message.**

A message of any service but the control service goes to the owners of the client it is for, or to
all owners of a client of its service when its client id is zero.  The loops of `recv_qmi_from_dev`
write it once for each such client, not once for each such connection.

* `QmiProxy.deliveries` — what a handler writes to one descriptor;
* `QmiProxy.Owns` — a connection that a service message is for;
* `QmiProxy.DeliveredOnce` — the message is written once to each such connection, and nowhere else;
* `QmiProxy.deliveries_serviceWrites` — a connection gets one copy for each client that matches;
* `QmiProxy.World.deliveredOnce_iff` — **in every reachable state, a message is delivered once
  exactly when no connection has two clients that match it**;
* `QmiProxy.World.not_deliveredOnce` — a client with two WDS client ids gets a broadcast twice.
-/
import OpenwrtPackage.QmiProxy.World

set_option relaxedAutoImplicit false
set_option autoImplicit false

namespace QmiProxy

open Qmi

/-! ### What is delivered -/

/-- What a handler writes to the descriptor `fd`, in order. -/
def deliveries (acts : List Action) (fd : ℤ) : List (List UInt8) :=
  acts.filterMap fun
    | .toClient gd bytes => if gd = fd then some bytes else none
    | _ => none

/-- The connection owns a client that the service message `m` is for. -/
def Owns (qmiCon : QmiProxyConnection) (m : List UInt8) : Prop :=
  ∃ qmiClient ∈ qmiCon.clientQnode, qmiClient.qmiType = qmiHdrQmiType m ∧
    (qmiHdrClientId m = 0 ∨ qmiClient.clientId = qmiHdrClientId m)

instance (qmiCon : QmiProxyConnection) (m : List UInt8) : Decidable (Owns qmiCon m) :=
  inferInstanceAs (Decidable (∃ qmiClient ∈ qmiCon.clientQnode, _))

/-- The message `m` from the device is written once to each connection it is for. -/
structure DeliveredOnce (p : Proxy) (m : List UInt8) : Prop where
  /-- a connection gets the message once if it is for one of its clients, and not at all if not -/
  once : ∀ qmiCon ∈ p.qmiProxyConnection,
    deliveries (recvQmiFromDev p m).2 qmiCon.clientFd =
      if Owns qmiCon m then [m.take (qmiSize m)] else []
  /-- nothing is written to any other descriptor -/
  nobodyElse : ∀ fd ∉ p.fds, deliveries (recvQmiFromDev p m).2 fd = []

/-- The test of the loop, in words: the connection owns a client that passes it. -/
theorem owns_iff {qmiCon : QmiProxyConnection} {m : List UInt8} :
    Owns qmiCon m ↔ 0 < qmiCon.clientQnode.countP (matchesClient m) := by
  rw [List.countP_pos_iff]
  refine exists_congr fun qmiClient => and_congr_right fun _ => ?_
  simp only [matchesClient, Bool.and_eq_true, Bool.or_eq_true, decide_eq_true_eq]
  rw [eq_comm (a := qmiHdrQmiType m), eq_comm (b := qmiClient.clientId)]

/-! ### The loops -/

/-- The inner loop writes one copy for each client that matches. -/
theorem deliveries_clients (fd gd : ℤ) (m : List UInt8) (clients : List QmiProxyClient) :
    deliveries (clients.flatMap fun qmiClient =>
        if matchesClient m qmiClient then sendQmiToClient m fd else []) gd =
      if fd = gd then List.replicate (clients.countP (matchesClient m)) (m.take (qmiSize m))
      else [] := by
  induction clients with
  | nil => simp [deliveries]
  | cons c clients ih =>
      simp only [deliveries] at ih ⊢
      rw [List.flatMap_cons, List.filterMap_append, ih]
      by_cases hc : matchesClient m c = true
      · rw [if_pos hc, List.countP_cons_of_pos hc]
        by_cases hfd : fd = gd
        · simp [sendQmiToClient, hfd, List.replicate_succ]
        · simp [sendQmiToClient, hfd]
      · rw [if_neg hc, List.countP_cons_of_neg hc, List.filterMap_nil, List.nil_append]

/-- The outer loop goes over connections with different descriptors: each gets the copies of its
own inner loop. -/
theorem deliveries_serviceWrites {p : Proxy} (hn : p.fds.Nodup) (m : List UInt8)
    {qmiCon : QmiProxyConnection} (hc : qmiCon ∈ p.qmiProxyConnection) :
    deliveries (serviceWrites p m) qmiCon.clientFd =
      List.replicate (qmiCon.clientQnode.countP (matchesClient m)) (m.take (qmiSize m)) := by
  have hloop := fun con : QmiProxyConnection =>
    deliveries_clients con.clientFd qmiCon.clientFd m con.clientQnode
  unfold deliveries serviceWrites at *
  rw [List.filterMap_flatMap, Keyed.flatMap_eq_of_mem hn hc, hloop, if_pos rfl]
  intro con _ hne
  rw [hloop, if_neg hne]

theorem deliveries_serviceWrites_eq_nil {p : Proxy} (m : List UInt8) {fd : ℤ} (hfd : fd ∉ p.fds) :
    deliveries (serviceWrites p m) fd = [] := by
  have hloop := fun con : QmiProxyConnection =>
    deliveries_clients con.clientFd fd m con.clientQnode
  unfold deliveries serviceWrites at *
  rw [List.filterMap_flatMap, List.flatMap_eq_nil_iff]
  intro con hcon
  rw [hloop, if_neg]
  rintro rfl
  exact hfd (List.mem_map_of_mem hcon)

theorem recvQmiFromDev_service {p : Proxy} (hs : 0 < p.qmiProxyServerFd) {m : List UInt8}
    (hm : qmiHdrQmiType m ≠ qmuxTypeCtl) : recvQmiFromDev p m = (p, serviceWrites p m) := by
  have hne : ¬ p.qmiProxyServerFd = -1 := by omega
  rw [recvQmiFromDev, if_neg hne, if_neg hm]

namespace World

/-- **A service message is delivered once exactly when no connection owns two clients that match
it.**  For a message with a client id this is a promise of the modem, which grants an id of a
service once; for a broadcast it fails as soon as a client owns two ids of the service. -/
theorem deliveredOnce_iff {serverFd : {fd : ℤ // 0 < fd}} {evs : List Event} {w : World}
    (hw : w ∈ EventRun.states step (start serverFd) evs) {m : List UInt8}
    (hm : qmiHdrQmiType m ≠ qmuxTypeCtl) :
    DeliveredOnce w.proxy m ↔
      ∀ qmiCon ∈ w.proxy.qmiProxyConnection, qmiCon.clientQnode.countP (matchesClient m) ≤ 1 := by
  have hi := inv_of_mem_states hw
  have hrecv := recvQmiFromDev_service hi.serverOpen hm
  constructor
  · intro hd qmiCon hc
    have honce := hd.once qmiCon hc
    rw [hrecv, deliveries_serviceWrites hi.fds_nodup m hc] at honce
    have hlen := congrArg List.length honce
    rw [List.length_replicate] at hlen
    split at hlen
    · exact Nat.le_of_eq hlen
    · rw [hlen]
      exact Nat.zero_le 1
  · intro hone
    constructor
    · intro qmiCon hc
      have hle := hone qmiCon hc
      rw [hrecv, deliveries_serviceWrites hi.fds_nodup m hc]
      by_cases ho : Owns qmiCon m
      · have hcount : qmiCon.clientQnode.countP (matchesClient m) = 1 := by
          have := owns_iff.1 ho
          omega
        rw [if_pos ho, hcount, List.replicate_one]
      · have hcount : qmiCon.clientQnode.countP (matchesClient m) = 0 := by
          have := mt owns_iff.2 ho
          omega
        rw [if_neg ho, hcount, List.replicate_zero]
    · intro fd hfd
      rw [hrecv, deliveries_serviceWrites_eq_nil m hfd]

/-- A client gets two client ids of the service WDS, one for each address family. -/
def twoWdsClients : List Event :=
  [.accept 5, .request 5 (getClientIdReq 1 1), .answer 0 (getClientIdResp 1 1 7),
    .request 5 (getClientIdReq 2 1), .answer 0 (getClientIdResp 2 1 8)]

/-- A service indication of the service `qmiType` for the client `clientId`. -/
def serviceInd (qmiType clientId : UInt8) : List UInt8 :=
  [0x01, 12, 0, 0x80, qmiType, clientId, 0x04, 1, 0, 0x22, 0, 0, 0]

theorem deliveredOnce_twoWdsClients :
    ∃ w ∈ EventRun.states step (start sampleServerFd) twoWdsClients,
      (w.proxy.qmiProxyConnection.map fun qmiCon => qmiCon.clientQnode.length) = [2] ∧
        DeliveredOnce w.proxy (serviceInd 1 7) := by
  have hone : ∃ w ∈ EventRun.states step (start sampleServerFd) twoWdsClients,
      (w.proxy.qmiProxyConnection.map fun qmiCon => qmiCon.clientQnode.length) = [2] ∧
        ∀ qmiCon ∈ w.proxy.qmiProxyConnection,
          qmiCon.clientQnode.countP (matchesClient (serviceInd 1 7)) ≤ 1 := by
    decide +kernel
  obtain ⟨w, hw, htwo, hone⟩ := hone
  exact ⟨w, hw, htwo, (deliveredOnce_iff hw (by decide)).2 hone⟩

/-- It gets a broadcast of that service twice. -/
theorem not_deliveredOnce : ¬ ∀ (serverFd : {fd : ℤ // 0 < fd}) (evs : List Event),
    ∀ w ∈ EventRun.states step (start serverFd) evs, ∀ m, qmiHdrQmiType m ≠ qmuxTypeCtl →
      DeliveredOnce w.proxy m := by
  intro hall
  have htwice : ∃ w ∈ EventRun.states step (start sampleServerFd) twoWdsClients,
      ∃ qmiCon ∈ w.proxy.qmiProxyConnection,
        (deliveries (recvQmiFromDev w.proxy (serviceInd 1 0)).2 qmiCon.clientFd).length = 2 := by
    decide +kernel
  obtain ⟨w, hw, qmiCon, hc, htwo⟩ := htwice
  have honce := (hall _ _ w hw (serviceInd 1 0) (by decide)).once qmiCon hc
  rw [honce] at htwo
  split at htwo <;> simp at htwo

end World

end QmiProxy

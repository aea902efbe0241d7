/-
**The identities that the QRTR proxy gives to its clients.**

Each client of the proxy has a client id and a port.  Both come from an array in which the numbers
in use are marked; there are 239 client ids.  A request that finds no free client id is refused,
but the record of the refused client stays, with the client id 0.

Main definitions:

* `QrtrProxy.Event`, `QrtrProxy.step` — what can happen to the proxy, and what it does;
* `QrtrProxy.Distinct` — no two clients share a client id or a port, so that a packet is for one
  client at most;
* `QrtrProxy.RoomLeft` — a client id is asked for only while one is free;
* `QrtrProxy.Tables` — the arrays mark the ids and the ports of the clients, and nothing else.

Main results:

* `QrtrProxy.distinct_iff` — **clients are told apart all along a run exactly when a client id is
  asked for only while one is free**;
* `QrtrProxy.not_distinct` — a client that keeps asking.
-/
import OpenwrtPackage.Lib.EventRun
import OpenwrtPackage.QrtrProxy.Model

set_option relaxedAutoImplicit false
set_option autoImplicit false

namespace QrtrProxy

open Qmi

/-! ### Steps of the proxy -/

/-- What can happen next to the loop. -/
inductive Event where
  /-- a client connects and gets the descriptor `clientfd` -/
  | accept (clientfd : ℤ)
  /-- a message from the client on `clientfd`; it stands at the front of the buffer `pQMI` -/
  | request (clientfd : ℤ) (pQMI : List UInt8)
  /-- the client on `clientfd` goes away -/
  | hangup (clientfd : ℤ)
  /-- a packet from the device -/
  | packet (pkt : Packet)

/-- The server socket has been opened, and the services `servers` have been announced. -/
def start (servers : List QrtrService) : Proxy := ⟨[], servers, ⟨fun _ => 0, fun _ => 0⟩⟩

/-- One entry of `pollfds` in `qrtr_proxy_loop`.  A client message has a whole header. -/
def step (p : Proxy) : Event → Option Proxy
  | .accept clientfd =>
      if clientfd ∉ p.fds ∧ 0 ≤ clientfd then some (acceptQrtrConnection p clientfd) else none
  | .request clientfd pQMI =>
      if clientfd ∈ p.fds ∧ qcqmiHdrSize ≤ qmiSize pQMI then
        some (recvQmiFromClient p pQMI clientfd).1
      else none
  | .hangup clientfd =>
      if clientfd ∈ p.fds then some (cleanupQrtrConnection p clientfd).1 else none
  | .packet pkt => some (recvQrtrFromDev p pkt).1

/-- The clients can be told apart. -/
structure Distinct (p : Proxy) : Prop where
  ids_nodup : (p.live.map (·.clientId)).Nodup
  ids_ne_zero : ∀ c ∈ p.live, c.clientId ≠ 0
  ports_nodup : (p.live.map (·.portId)).Nodup
  ports_ne_zero : ∀ c ∈ p.live, c.portId ≠ 0
  /-- a data packet for a port of node 1 is for one client at most -/
  one_match : ∀ hdr : QrtrHdr, hdr.dstNodeId = 1 → p.live.countP (matchesPacket hdr) ≤ 1

/-- The message makes the proxy add a client: it asks for a client id of a known service. -/
def Allocates (p : Proxy) (pQMI : List UInt8) : Prop :=
  qmiHdrQmiType pQMI = qmuxTypeCtl ∧ qmictlType pQMI = qmictlGetClientIdReq ∧
    (findQrtrService p.qrtrServerList (reqQmiType pQMI)).isSome = true

instance (p : Proxy) (pQMI : List UInt8) : Decidable (Allocates p pQMI) :=
  inferInstanceAs (Decidable (_ ∧ _ ∧ _))

/-- A client is added only while there are fewer clients than client ids.  Other events are not
restricted. -/
def RoomLeft (p : Proxy) : Event → Prop
  | .request _ pQMI => Allocates p pQMI → p.live.length + 1 < clientBitmapSize
  | _ => True

instance (p : Proxy) : (e : Event) → Decidable (RoomLeft p e)
  | .request _ pQMI =>
      inferInstanceAs (Decidable (Allocates p pQMI → p.live.length + 1 < clientBitmapSize))
  | .accept _ | .hangup _ | .packet _ => isTrue trivial

/-! ### The arrays -/

/-- The array `bitmap` marks the numbers `ids`, each with itself. -/
structure Table (size : ℕ) (bitmap : ℕ → UInt8) (ids : List ℕ) : Prop where
  records : FirstFree.Records size (fun id => bitmap id ≠ 0) ids
  stored : ∀ id ∈ ids, (bitmap id).toNat = id

theorem Table.perm {size : ℕ} {bitmap : ℕ → UInt8} {ids ids' : List ℕ}
    (h : Table size bitmap ids) (hp : ids.Perm ids') : Table size bitmap ids' :=
  ⟨h.records.perm hp, fun id hid => h.stored id (hp.mem_iff.2 hid)⟩

/-- While few numbers are in use, `allocId` marks a new one, and it is small enough for its
cell. -/
theorem Table.alloc {size : ℕ} {bitmap : ℕ → UInt8} {ids : List ℕ} (h : Table size bitmap ids)
    (hroom : ids.length + 1 < size) (hcell : ids.length + 1 < 256) :
    1 ≤ (allocId size bitmap).1 ∧ (allocId size bitmap).1 ≤ ids.length + 1 ∧
      Table size (allocId size bitmap).2 ((allocId size bitmap).1 :: ids) := by
  obtain ⟨id, hfree, hle⟩ := h.records.exists_firstFree hroom
  obtain ⟨h1, -, -⟩ := FirstFree.firstFree_some hfree
  -- the number fits into its cell of one byte
  have hval : (UInt8.ofNat id).toNat = id := by
    rw [UInt8.toNat_ofNat']
    omega
  have hne : UInt8.ofNat id ≠ 0 := by
    intro h0
    rw [h0, UInt8.toNat_zero] at hval
    omega
  simp only [allocId, hfree]
  refine ⟨h1, hle, ?_, ?_⟩
  · have hmark : (fun j => decide (Function.update bitmap id (UInt8.ofNat id) j ≠ 0)) =
        Function.update (fun j => decide (bitmap j ≠ 0)) id true := by
      funext j
      by_cases hj : j = id
      · subst hj
        simp [hne]
      · simp [Function.update_of_ne hj]
    rw [hmark]
    exact h.records.take hfree
  · intro j hj
    rcases List.mem_cons.1 hj with rfl | hold
    · rw [Function.update_self, hval]
    · have hjid : j ≠ id := fun heq => h.records.not_mem_firstFree hfree (heq ▸ hold)
      rw [Function.update_of_ne hjid]
      exact h.stored j hold

/-- When all numbers are in use, `allocId` returns 0 and marks nothing. -/
theorem Table.alloc_eq_none {size : ℕ} {bitmap : ℕ → UInt8} {ids : List ℕ}
    (h : Table size bitmap ids) (hfull : size ≤ ids.length + 1) :
    allocId size bitmap = (0, bitmap) := by
  rw [allocId, h.records.firstFree_eq_none hfull]

/-- `freeId` takes the mark off a number in use. -/
theorem Table.free {size : ℕ} {bitmap : ℕ → UInt8} {id : ℕ} {ids : List ℕ}
    (h : Table size bitmap (id :: ids)) : Table size (freeId size bitmap id) ids := by
  have hmem : id ∈ id :: ids := List.mem_cons_self ..
  have hlt : id < size := (h.records.range id hmem).2
  have hnot : id ∉ ids := (List.nodup_cons.1 h.records.nodup).1
  rw [freeId, if_pos ⟨hlt, h.stored id hmem⟩]
  constructor
  · have hmark : (fun j => decide (Function.update bitmap id 0 j ≠ 0)) =
        Function.update (fun j => decide (bitmap j ≠ 0)) id false := by
      funext j
      by_cases hj : j = id
      · subst hj
        simp
      · simp [Function.update_of_ne hj]
    rw [hmark]
    have hrel := h.records.release id
    rwa [List.erase_cons_head] at hrel
  · intro j hj
    have hjid : j ≠ id := by
      rintro rfl
      exact hnot hj
    rw [Function.update_of_ne hjid]
    exact h.stored j (List.mem_cons_of_mem _ hj)

/-- The arrays mark the client ids and the ports of the clients `live`. -/
structure Tables (b : Bitmaps) (live : List QrtrProxyClient) : Prop where
  clients : Table clientBitmapSize b.client (live.map fun c => c.clientId.toNat)
  ports : Table portBitmapSize b.port (live.map fun c => c.portId.toNat)

theorem Tables.perm {b : Bitmaps} {live live' : List QrtrProxyClient} (h : Tables b live)
    (hp : live.Perm live') : Tables b live' :=
  ⟨h.clients.perm (hp.map _), h.ports.perm (hp.map _)⟩

theorem Tables.free {b : Bitmaps} {c : QrtrProxyClient} {live : List QrtrProxyClient}
    (h : Tables b (c :: live)) :
    Tables ⟨freeClientId b c.clientId.toNat, freePortId b c.portId.toNat⟩ live :=
  ⟨h.clients.free, h.ports.free⟩

/-- While few client ids are in use, a client that is added gets one, and it is marked. -/
theorem Table.alloc_client {b : Bitmaps} {ids : List ℕ} (h : Table clientBitmapSize b.client ids)
    (hroom : ids.length + 1 < clientBitmapSize) (qmiType : UInt8) :
    1 ≤ (allocQrtrClientId b qmiType).2.clientId.toNat ∧
      Table clientBitmapSize (allocQrtrClientId b qmiType).1.client
        ((allocQrtrClientId b qmiType).2.clientId.toNat :: ids) := by
  simp only [clientBitmapSize] at hroom
  obtain ⟨h1, hle, htable⟩ := h.alloc hroom (by omega)
  have hid : (UInt8.ofNat (allocId clientBitmapSize b.client).1).toNat =
      (allocId clientBitmapSize b.client).1 := by
    rw [UInt8.toNat_ofNat']
    omega
  simp only [allocQrtrClientId, allocClientId, hid]
  exact ⟨h1, htable⟩

/-- While fewer ports are in use than fit into a byte, the port of a client that is added is
marked. -/
theorem Table.alloc_port {b : Bitmaps} {ids : List ℕ} (h : Table portBitmapSize b.port ids)
    (hroom : ids.length + 1 < 256) (qmiType : UInt8) :
    Table portBitmapSize (allocQrtrClientId b qmiType).1.port
      ((allocQrtrClientId b qmiType).2.portId.toNat :: ids) := by
  obtain ⟨-, hle, htable⟩ := h.alloc (by simp only [portBitmapSize]; omega) hroom
  have hid : (UInt32.ofNat (allocId portBitmapSize b.port).1).toNat =
      (allocId portBitmapSize b.port).1 := by
    rw [UInt32.toNat_ofNat']
    omega
  simpa only [allocQrtrClientId, allocPortId, hid] using htable

/-- A client that is added while there is room is marked in both arrays. -/
theorem Tables.alloc {b : Bitmaps} {live : List QrtrProxyClient} (h : Tables b live)
    (hroom : live.length + 1 < clientBitmapSize) (qmiType : UInt8) :
    Tables (allocQrtrClientId b qmiType).1 ((allocQrtrClientId b qmiType).2 :: live) := by
  constructor
  · exact (h.clients.alloc_client (by rwa [List.length_map]) qmiType).2
  · refine h.ports.alloc_port ?_ qmiType
    simp only [clientBitmapSize] at hroom
    rw [List.length_map]
    omega

/-- A client that is added when all client ids are in use gets the client id 0. -/
theorem Tables.alloc_eq_zero {b : Bitmaps} {live : List QrtrProxyClient} (h : Tables b live)
    (hfull : clientBitmapSize ≤ live.length + 1) (qmiType : UInt8) :
    (allocQrtrClientId b qmiType).2.clientId = 0 := by
  have hzero := h.clients.alloc_eq_none (by rw [List.length_map]; exact hfull)
  simp only [allocQrtrClientId, allocClientId, hzero]
  rfl

/-- Clients that are marked can be told apart. -/
theorem Tables.distinct {p : Proxy} (h : Tables p.bitmaps p.live) : Distinct p := by
  have hports : (p.live.map (·.portId)).Nodup := by
    refine List.Nodup.of_map UInt32.toNat ?_
    rw [List.map_map]
    exact h.ports.records.nodup
  refine
    { ids_nodup := ?_, ids_ne_zero := ?_, ports_nodup := hports, ports_ne_zero := ?_
      one_match := ?_ }
  · refine List.Nodup.of_map UInt8.toNat ?_
    rw [List.map_map]
    exact h.clients.records.nodup
  · intro c hc h0
    have hrange := h.clients.records.range c.clientId.toNat (List.mem_map_of_mem hc)
    rw [h0, UInt8.toNat_zero] at hrange
    omega
  · intro c hc h0
    have hrange := h.ports.records.range c.portId.toNat (List.mem_map_of_mem hc)
    rw [h0, UInt32.toNat_zero] at hrange
    omega
  · intro hdr _
    have hcount : p.live.countP (matchesPacket hdr) ≤
        (p.live.map (·.portId)).count hdr.dstPortId := by
      rw [List.count, List.countP_map]
      refine List.countP_mono_left fun c _ hmatch => ?_
      simp only [matchesPacket, Bool.and_eq_true, decide_eq_true_eq] at hmatch
      simp [hmatch.2]
    exact Nat.le_trans hcount (List.nodup_iff_count_le_one.1 hports _)

/-! ### Steps and clients -/

/-- A descriptor that is open has a connection. -/
theorem exists_connection {p : Proxy} {clientfd : ℤ} (hfd : clientfd ∈ p.fds) :
    ∃ qrtrCon,
      p.qrtrProxyConnection.find? (fun con => con.clientFd = clientfd) = some qrtrCon := by
  obtain ⟨con, hmem, hfd⟩ := List.mem_map.1 hfd
  exact Option.isSome_iff_exists.1 (List.find?_isSome.2 ⟨con, hmem, by simpa using hfd⟩)

/-- A connection that gets another list of clients: the other clients stay. -/
theorem live_setClients {p : Proxy} {clientfd : ℤ} {qrtrCon : QrtrProxyConnection}
    (h : p.qrtrProxyConnection.find? (fun con => con.clientFd = clientfd) = some qrtrCon) :
    ∃ rest, p.live.Perm (qrtrCon.clientQnode ++ rest) ∧
      ∀ (clients : List QrtrProxyClient) (b : Bitmaps),
        (Proxy.live ⟨setClients p clientfd clients, p.qrtrServerList, b⟩).Perm
          (clients ++ rest) := by
  obtain ⟨before, after, hsplit, -, -, hupdate, -⟩ := Keyed.exists_updateFirst_eq h
  refine ⟨before.flatMap (·.clientQnode) ++ after.flatMap (·.clientQnode), ?_, ?_⟩
  · simp only [Proxy.live, hsplit, List.flatMap_append, List.flatMap_cons]
    exact List.perm_append_comm_assoc ..
  · intro clients b
    simp only [Proxy.live, setClients, hupdate, List.flatMap_append, List.flatMap_cons]
    exact List.perm_append_comm_assoc ..

/-- What a message from a client does to the clients when it asks for a client id of a known
service: it adds one. -/
theorem recvQmiFromClient_allocates {p : Proxy} {pQMI : List UInt8} {clientfd : ℤ}
    (hfd : clientfd ∈ p.fds) (h : Allocates p pQMI) :
    (recvQmiFromClient p pQMI clientfd).1.bitmaps =
        (allocQrtrClientId p.bitmaps (reqQmiType pQMI)).1 ∧
      (recvQmiFromClient p pQMI clientfd).1.live.Perm
        ((allocQrtrClientId p.bitmaps (reqQmiType pQMI)).2 :: p.live) := by
  obtain ⟨con, hcon⟩ := exists_connection hfd
  obtain ⟨rest, hlive, hset⟩ := live_setClients hcon
  obtain ⟨hctl, hget, hsrv⟩ := h
  obtain ⟨srv, hsrv⟩ := Option.isSome_iff_exists.1 hsrv
  have hsync : ¬ qmictlType pQMI = qmictlSyncReq := by
    rw [hget]
    decide
  unfold recvQmiFromClient
  rw [hcon]
  simp only
  rw [if_pos hctl, if_neg hsync, if_pos hget, hsrv]
  refine ⟨rfl, (hset _ _).trans ?_⟩
  rw [List.append_assoc, List.singleton_append]
  exact List.perm_middle.trans (hlive.symm.cons _)

/-- Any other message from a client releases a client, or none, or leaves the proxy alone. -/
theorem recvQmiFromClient_releases {p : Proxy} {pQMI : List UInt8} {clientfd : ℤ}
    (hfd : clientfd ∈ p.fds) (h : ¬ Allocates p pQMI) :
    (∃ clients rest, p.live.Perm (clients ++ rest) ∧
      (recvQmiFromClient p pQMI clientfd).1.bitmaps =
        (releaseQrtrClientId p.qrtrServerList p.bitmaps clients (reqQmiType pQMI)
          (reqClientId pQMI)).1 ∧
      (recvQmiFromClient p pQMI clientfd).1.live.Perm
        ((releaseQrtrClientId p.qrtrServerList p.bitmaps clients (reqQmiType pQMI)
          (reqClientId pQMI)).2.1 ++ rest)) ∨
    (recvQmiFromClient p pQMI clientfd).1 = p := by
  obtain ⟨con, hcon⟩ := exists_connection hfd
  obtain ⟨rest, hlive, hset⟩ := live_setClients hcon
  unfold recvQmiFromClient
  rw [hcon]
  simp only
  by_cases hctl : qmiHdrQmiType pQMI = qmuxTypeCtl
  · rw [if_pos hctl]
    split
    · exact .inr rfl
    · split
      · -- a client id is asked for, but the service is not known
        rename_i hget
        have hsrv : findQrtrService p.qrtrServerList (reqQmiType pQMI) = none := by
          rw [← Option.not_isSome_iff_eq_none]
          exact fun hsrv => h ⟨hctl, hget, hsrv⟩
        rw [hsrv]
        exact .inr rfl
      · split
        · exact .inl ⟨con.clientQnode, rest, hlive, rfl, hset _ _⟩
        · split <;> exact .inr rfl
  · rw [if_neg hctl]
    split
    · exact .inr rfl
    · split
      · exact .inr rfl
      · split <;> exact .inr rfl

theorem recvQmiFromClient_fds (p : Proxy) (pQMI : List UInt8) (clientfd : ℤ) :
    (recvQmiFromClient p pQMI clientfd).1.fds = p.fds := by
  have hset : ∀ (clients : List QrtrProxyClient) (b : Bitmaps),
      Proxy.fds ⟨setClients p clientfd clients, p.qrtrServerList, b⟩ = p.fds := by
    intro clients b
    simp only [Proxy.fds, setClients]
    refine Keyed.map_updateFirst ?_ _
    intro con
    rfl
  unfold recvQmiFromClient
  repeat' split
  all_goals first | rfl | exact hset _ _

theorem recvQmiFromClient_servers (p : Proxy) (pQMI : List UInt8) (clientfd : ℤ) :
    (recvQmiFromClient p pQMI clientfd).1.qrtrServerList = p.qrtrServerList := by
  unfold recvQmiFromClient
  repeat' split
  all_goals rfl

/-- The marks of the clients `gone` are taken off, one client after the other. -/
def freeClients (b : Bitmaps) (gone : List QrtrProxyClient) : Bitmaps :=
  gone.foldl (fun b c => ⟨freeClientId b c.clientId.toNat, freePortId b c.portId.toNat⟩) b

/-- A release takes one client away, or nothing. -/
theorem releaseQrtrClientId_gone (servers : List QrtrService) (b : Bitmaps)
    (clients : List QrtrProxyClient) (qmiType clientId : UInt8) :
    ∃ gone, clients.Perm (gone ++ (releaseQrtrClientId servers b clients qmiType clientId).2.1) ∧
      (releaseQrtrClientId servers b clients qmiType clientId).1 = freeClients b gone := by
  unfold releaseQrtrClientId
  split
  · rename_i c hc
    obtain ⟨before, after, hsplit, -, -, -, herase⟩ := Keyed.exists_updateFirst_eq hc
    refine ⟨[c], ?_, rfl⟩
    rw [herase, hsplit]
    exact List.perm_middle
  · exact ⟨[], List.Perm.refl _, rfl⟩

theorem releaseAll_eq_freeClients (servers : List QrtrService) (b : Bitmaps)
    (clients : List QrtrProxyClient) :
    (releaseAll servers b clients).1 = freeClients b clients := by
  induction clients generalizing b with
  | nil => rfl
  | cons c clients ih =>
      simp only [releaseAll, releaseQrtrClientId_head]
      exact ih _

/-- The cleanup of a connection takes its clients away. -/
theorem cleanupQrtrConnection_gone {p : Proxy} {clientfd : ℤ} {qrtrCon : QrtrProxyConnection}
    (h : p.qrtrProxyConnection.find? (fun con => con.clientFd = clientfd) = some qrtrCon) :
    p.live.Perm (qrtrCon.clientQnode ++ (cleanupQrtrConnection p clientfd).1.live) ∧
      (cleanupQrtrConnection p clientfd).1.bitmaps =
        freeClients p.bitmaps qrtrCon.clientQnode := by
  obtain ⟨before, after, hsplit, -, -, -, herase⟩ := Keyed.exists_updateFirst_eq h
  unfold cleanupQrtrConnection
  rw [h]
  refine ⟨?_, releaseAll_eq_freeClients ..⟩
  simp only [Proxy.live]
  rw [herase, hsplit, List.flatMap_append, List.flatMap_append, List.flatMap_cons]
  exact List.perm_append_comm_assoc ..

/-- A packet from the device adds to the services, if anything. -/
theorem recvQrtrFromDev_proxy (p : Proxy) (pkt : Packet) : ∃ more,
    (recvQrtrFromDev p pkt).1 = { p with qrtrServerList := p.qrtrServerList ++ more } := by
  have hsame : p = { p with qrtrServerList := p.qrtrServerList ++ [] } := by
    rw [List.append_nil]
  unfold recvQrtrFromDev handleServerChange
  split
  · exact ⟨[], hsame⟩
  · split
    · split
      · exact ⟨[], hsame⟩
      · split
        · exact ⟨_, rfl⟩
        · exact ⟨[], hsame⟩
    · split
      · exact ⟨[], hsame⟩
      · exact ⟨[], hsame⟩

theorem recvQrtrFromDev_tables (p : Proxy) (pkt : Packet) :
    (recvQrtrFromDev p pkt).1.bitmaps = p.bitmaps ∧ (recvQrtrFromDev p pkt).1.live = p.live := by
  obtain ⟨more, hmore⟩ := recvQrtrFromDev_proxy p pkt
  rw [hmore]
  exact ⟨rfl, rfl⟩

/-- A request that makes the proxy add a client. -/
theorem step_allocates {p p' : Proxy} {clientfd : ℤ} {pQMI : List UInt8} (ha : Allocates p pQMI)
    (h : step p (.request clientfd pQMI) = some p') :
    p'.bitmaps = (allocQrtrClientId p.bitmaps (reqQmiType pQMI)).1 ∧
      p'.live.Perm ((allocQrtrClientId p.bitmaps (reqQmiType pQMI)).2 :: p.live) := by
  simp only [step] at h
  split at h
  · rename_i hguard
    obtain rfl := Option.some.inj h
    exact recvQmiFromClient_allocates hguard.1 ha
  · simp at h

/-- What a step does to the clients and the arrays: it adds a client, or takes some away. -/
theorem step_cases {p p' : Proxy} {e : Event} (h : step p e = some p') :
    (∃ clientfd pQMI, e = .request clientfd pQMI ∧ Allocates p pQMI ∧
      p'.bitmaps = (allocQrtrClientId p.bitmaps (reqQmiType pQMI)).1 ∧
      p'.live.Perm ((allocQrtrClientId p.bitmaps (reqQmiType pQMI)).2 :: p.live)) ∨
    (∃ gone, p.live.Perm (gone ++ p'.live) ∧ p'.bitmaps = freeClients p.bitmaps gone) := by
  cases e with
  | accept clientfd =>
      simp only [step] at h
      split at h
      · obtain rfl := Option.some.inj h
        refine .inr ⟨[], List.Perm.of_eq ?_, rfl⟩
        simp [acceptQrtrConnection, Proxy.live]
      · simp at h
  | request clientfd pQMI =>
      by_cases halloc : Allocates p pQMI
      · exact .inl ⟨clientfd, pQMI, rfl, halloc, step_allocates halloc h⟩
      simp only [step] at h
      split at h
      · rename_i hguard
        obtain rfl := Option.some.inj h
        rcases recvQmiFromClient_releases hguard.1 halloc with
          ⟨clients, rest, hsplit, hb, hlive⟩ | hsame
        · obtain ⟨gone, hgone, hfree⟩ := releaseQrtrClientId_gone p.qrtrServerList p.bitmaps
            clients (reqQmiType pQMI) (reqClientId pQMI)
          refine .inr ⟨gone, ?_, hb.trans hfree⟩
          refine (hsplit.trans (hgone.append_right rest)).trans ?_
          rw [List.append_assoc]
          exact hlive.symm.append_left gone
        · rw [hsame]
          exact .inr ⟨[], List.Perm.refl _, rfl⟩
      · simp at h
  | hangup clientfd =>
      simp only [step] at h
      split at h
      · rename_i hfd
        obtain rfl := Option.some.inj h
        obtain ⟨con, hcon⟩ := exists_connection hfd
        exact .inr ⟨con.clientQnode, cleanupQrtrConnection_gone hcon⟩
      · simp at h
  | packet pkt =>
      obtain rfl := Option.some.inj h
      obtain ⟨hb, hlive⟩ := recvQrtrFromDev_tables p pkt
      exact .inr ⟨[], List.Perm.of_eq hlive.symm, hb⟩

/-- What a single release keeps, the release of several clients keeps. -/
theorem freeClients_keeps {P : Bitmaps → List QrtrProxyClient → Prop}
    (hfree : ∀ (b : Bitmaps) (c : QrtrProxyClient) (live : List QrtrProxyClient), P b (c :: live) →
      P ⟨freeClientId b c.clientId.toNat, freePortId b c.portId.toNat⟩ live)
    {rest : List QrtrProxyClient} (gone : List QrtrProxyClient) {b : Bitmaps}
    (h : P b (gone ++ rest)) : P (freeClients b gone) rest := by
  induction gone generalizing b with
  | nil => exact h
  | cons c gone ih => exact ih (hfree _ _ _ h)

/-- **The rule for the arrays**: what holds of the arrays and the clients in any order, and is kept
by the release of a client and by the addition at hand, is kept by a step. -/
theorem step_keeps {P : Bitmaps → List QrtrProxyClient → Prop}
    (hperm : ∀ (b : Bitmaps) (l l' : List QrtrProxyClient), l.Perm l' → P b l → P b l')
    (hfree : ∀ (b : Bitmaps) (c : QrtrProxyClient) (live : List QrtrProxyClient), P b (c :: live) →
      P ⟨freeClientId b c.clientId.toNat, freePortId b c.portId.toNat⟩ live)
    {p p' : Proxy} {e : Event}
    (halloc : ∀ clientfd pQMI, e = .request clientfd pQMI → Allocates p pQMI →
      P (allocQrtrClientId p.bitmaps (reqQmiType pQMI)).1
        ((allocQrtrClientId p.bitmaps (reqQmiType pQMI)).2 :: p.live))
    (hp : P p.bitmaps p.live) (h : step p e = some p') : P p'.bitmaps p'.live := by
  rcases step_cases h with ⟨clientfd, pQMI, he, ha, hb, hlive⟩ | ⟨gone, hlive, hb⟩
  · rw [hb]
    exact hperm _ _ _ hlive.symm (halloc clientfd pQMI he ha)
  · rw [hb]
    exact freeClients_keeps hfree gone (hperm _ _ _ hlive hp)

/-- Steps that leave room keep the arrays right. -/
theorem tables_step {p p' : Proxy} {e : Event} (ht : Tables p.bitmaps p.live) (hok : RoomLeft p e)
    (h : step p e = some p') : Tables p'.bitmaps p'.live := by
  refine step_keeps (P := Tables) ?_ ?_ ?_ ht h
  · intro b l l' hp hl
    exact hl.perm hp
  · intro b c live hl
    exact hl.free
  · rintro clientfd pQMI rfl ha
    exact ht.alloc (hok ha) _

/-- A client that is added when no client id is free has the client id 0. -/
theorem not_distinct_step {p p' : Proxy} {e : Event} (ht : Tables p.bitmaps p.live)
    (hbad : ¬ RoomLeft p e) (h : step p e = some p') : ¬ Distinct p' := by
  cases e with
  | request clientfd pQMI =>
      simp only [RoomLeft, Classical.not_imp, Nat.not_lt] at hbad
      obtain ⟨halloc, hfull⟩ := hbad
      obtain ⟨-, hlive⟩ := step_allocates halloc h
      intro hd
      exact hd.ids_ne_zero _ (hlive.mem_iff.2 (List.mem_cons_self ..)) (ht.alloc_eq_zero hfull _)
  | accept clientfd => exact absurd trivial hbad
  | hangup clientfd => exact absurd trivial hbad
  | packet pkt => exact absurd trivial hbad

/-! ### Whole runs -/

theorem tables_start (servers : List QrtrService) :
    Tables (start servers).bitmaps (start servers).live := by
  have hnone : ∀ size, Table size (fun _ => 0) [] := fun size =>
    ⟨⟨List.nodup_nil, by simp, by simp⟩, by simp⟩
  exact ⟨hnone _, hnone _⟩

/-- **All clients can be told apart all along a run exactly when a client id is asked for only while
one of the 239 is free.** -/
theorem distinct_iff (servers : List QrtrService) (evs : List Event) :
    (∀ p ∈ EventRun.states step (start servers) evs, Distinct p) ↔
      ∀ m ∈ EventRun.moves step (start servers) evs, RoomLeft m.1 m.2 :=
  EventRun.holds_iff (fun p => Tables p.bitmaps p.live) Distinct (fun _ _ => True) RoomLeft
    (fun _ h => h.distinct)
    (fun _ _ _ h _ hok hs => tables_step h hok hs)
    (fun _ _ _ h _ hno hs => not_distinct_step h hno hs)
    (tables_start servers) (fun _ _ => trivial)

/-- The same request again and again: each adds a client of the type it asks for. -/
theorem exists_live_length {p : Proxy} {clientfd : ℤ} {pQMI : List UInt8} (hfd : clientfd ∈ p.fds)
    (hsize : qcqmiHdrSize ≤ qmiSize pQMI) (halloc : Allocates p pQMI) (n : ℕ) :
    ∃ q ∈ EventRun.states step p (List.replicate n (.request clientfd pQMI)),
      q.live.length = p.live.length + n ∧ q.fds = p.fds ∧
        ∀ c ∈ q.live, c ∈ p.live ∨ c.qmiType = reqQmiType pQMI := by
  induction n generalizing p with
  | zero => exact ⟨p, EventRun.mem_states_self .., rfl, rfl, fun _ hc => .inl hc⟩
  | succ n ih =>
      have hstep : step p (.request clientfd pQMI) =
          some (recvQmiFromClient p pQMI clientfd).1 := by
        rw [step, if_pos ⟨hfd, hsize⟩]
      have hlive := (recvQmiFromClient_allocates hfd halloc).2
      have hlen : (recvQmiFromClient p pQMI clientfd).1.live.length = p.live.length + 1 := by
        rw [hlive.length_eq, List.length_cons]
      have hfds := recvQmiFromClient_fds p pQMI clientfd
      have hservers := recvQmiFromClient_servers p pQMI clientfd
      obtain ⟨q, hq, hqlen, hqfds, htypes⟩ := ih (p := (recvQmiFromClient p pQMI clientfd).1)
        (hfds ▸ hfd) ⟨halloc.1, halloc.2.1, by rw [hservers]; exact halloc.2.2⟩
      refine ⟨q, ?_, by omega, hqfds.trans hfds, fun c hc => ?_⟩
      · rw [List.replicate_succ, EventRun.states_cons_some hstep]
        exact List.mem_cons_of_mem _ hq
      · rcases htypes c hc with hold | htype
        · rcases List.mem_cons.1 (hlive.mem_iff.1 hold) with rfl | hold
          · exact .inr rfl
          · exact .inl hold
        · exact .inr htype

/-- A client that connects and asks `n` times for the same service has `n` clients, marked or
not. -/
theorem exists_live_length_start (n : ℕ) : ∃ servers evs,
    ∃ q ∈ EventRun.states step (start servers) evs, q.live.length = n ∧ q.fds = [5] ∧
      ∀ c ∈ q.live, c.qmiType = 1 := by
  let servers : List QrtrService := [⟨1, nodeModem, 9, 3, 9⟩]
  let p : Proxy := acceptQrtrConnection (start servers) 5
  have haccept : step (start servers) (.accept 5) = some p := by
    simp [step, start, Proxy.fds, p]
  obtain ⟨q, hq, hlen, hfds, htypes⟩ := @exists_live_length p 5 (getClientIdReq 1 1) (by decide)
    (by decide) (by decide) n
  have hp0 : p.live.length = 0 := rfl
  refine ⟨servers, .accept 5 :: List.replicate n (.request 5 (getClientIdReq 1 1)), q, ?_,
    by omega, hfds, fun c hc => (htypes c hc).resolve_left (List.not_mem_nil)⟩
  rw [EventRun.states_cons_some haccept]
  exact List.mem_cons_of_mem _ hq

/-- One client asks for a client id of the same service 256 times. -/
theorem not_distinct : ¬ ∀ (servers : List QrtrService) (evs : List Event),
    ∀ p ∈ EventRun.states step (start servers) evs, Distinct p := by
  intro hall
  obtain ⟨servers, evs, q, hmem, hlen, -⟩ := exists_live_length_start 256
  have hd := hall servers evs q hmem
  -- there are not that many numbers in a byte
  have hlt : (q.live.map fun c => c.clientId.toNat).length ≤ 255 := by
    refine FirstFree.length_le_of_forall_lt ?_ fun id hid => ?_
    · have hinj : Function.Injective UInt8.toNat := fun a b h => UInt8.toNat_inj.1 h
      have hn := hd.ids_nodup.map hinj
      rwa [List.map_map] at hn
    · obtain ⟨c, hc, rfl⟩ := List.mem_map.1 hid
      have hne : c.clientId.toNat ≠ 0 := fun h0 =>
        hd.ids_ne_zero c hc (UInt8.toNat_inj.1 h0)
      have hlt := c.clientId.toNat_lt
      omega
  rw [List.length_map] at hlt
  omega

end QrtrProxy

/-
**No number of the QRTR proxy leaks.**

The arrays of the proxy say which client ids and which ports are in use, and the lists of clients
say who uses them; the two are written by different functions.  A client that is refused for want
of a client id still gets a port.  A cell of `port_bitmap` has one byte, so that the port 256 is
stored as 0, and looks free.

Main definitions:

* `QrtrProxy.NoLeak` — a number is marked exactly when a client has it;
* `QrtrProxy.releaseLoop` — the loop of `cleanup_qrtr_connection` as it is written;
* `QrtrProxy.Cleanup` — the cleanup of a connection ends, and releases what the connection has and
  nothing else;
* `QrtrProxy.PortLeft` — a client is added only while one of the first 255 ports is free;
* `QrtrProxy.Marks` — the arrays mark the ports of all clients and the client ids other than 0.

Main results:

* `QrtrProxy.releaseLoop_eq` — the loop ends;
* `QrtrProxy.noLeak_iff` — **no number leaks exactly when a client is added only while one of the
  first 255 ports is free**;
* `QrtrProxy.not_noLeak` — a client that asks 256 times.
-/
import OpenwrtPackage.QrtrProxy.Ids

set_option relaxedAutoImplicit false
set_option autoImplicit false

namespace QrtrProxy

open Qmi

/-! ### What should hold of the arrays -/

/-- The numbers from 1 on that the array marks are those of `ids`. -/
def MarksExactly (size : ℕ) (bitmap : ℕ → UInt8) (ids : List ℕ) : Prop :=
  ∀ id, 1 ≤ id → ((id < size ∧ bitmap id ≠ 0) ↔ id ∈ ids)

/-- A number is marked exactly when a client has it. -/
structure NoLeak (p : Proxy) : Prop where
  clients : MarksExactly clientBitmapSize p.bitmaps.client (p.live.map fun c => c.clientId.toNat)
  ports : MarksExactly portBitmapSize p.bitmaps.port (p.live.map fun c => c.portId.toNat)

/-- `while (!qlist_empty(…))` of `cleanup_qrtr_connection`: the client at the head of the list is
looked up by its type and id, and released.  After `fuel` rounds there is no result. -/
def releaseLoop (servers : List QrtrService) :
    ℕ → Bitmaps → List QrtrProxyClient → Option (Bitmaps × List Action)
  | _, b, [] => some (b, [])
  | 0, _, _ :: _ => none
  | fuel + 1, b, c :: rest =>
      let r := releaseQrtrClientId servers b (c :: rest) c.qmiType c.clientId
      (releaseLoop servers fuel r.1 r.2.1).map fun s => (s.1, r.2.2 ++ s.2)

/-- The cleanup of the connection `qrtrCon`, which is on `clientfd`. -/
structure Cleanup (p : Proxy) (clientfd : ℤ) (qrtrCon : QrtrProxyConnection) : Prop where
  /-- the loop comes to its end -/
  terminates : ∃ fuel writes, releaseLoop p.qrtrServerList fuel p.bitmaps qrtrCon.clientQnode =
    some ((cleanupQrtrConnection p clientfd).1.bitmaps, writes)
  /-- the clients of the other connections stay -/
  others : p.live.Perm (qrtrCon.clientQnode ++ (cleanupQrtrConnection p clientfd).1.live)
  clients_released : ∀ c ∈ qrtrCon.clientQnode, c.clientId ≠ 0 →
    (cleanupQrtrConnection p clientfd).1.bitmaps.client c.clientId.toNat = 0
  ports_released : ∀ c ∈ qrtrCon.clientQnode, c.portId ≠ 0 →
    (cleanupQrtrConnection p clientfd).1.bitmaps.port c.portId.toNat = 0
  /-- no other client id is released -/
  clients_kept : ∀ id, (∀ c ∈ qrtrCon.clientQnode, c.clientId.toNat ≠ id) →
    (cleanupQrtrConnection p clientfd).1.bitmaps.client id = p.bitmaps.client id
  ports_kept : ∀ id, (∀ c ∈ qrtrCon.clientQnode, c.portId.toNat ≠ id) →
    (cleanupQrtrConnection p clientfd).1.bitmaps.port id = p.bitmaps.port id

/-- A client is added only while there are fewer clients than ports that fit into a cell of one
byte. -/
def PortLeft (p : Proxy) : Event → Prop
  | .request _ pQMI => Allocates p pQMI → p.live.length + 1 < 256
  | _ => True

instance (p : Proxy) : (e : Event) → Decidable (PortLeft p e)
  | .request _ pQMI => inferInstanceAs (Decidable (Allocates p pQMI → p.live.length + 1 < 256))
  | .accept _ | .hangup _ | .packet _ => isTrue trivial

/-! ### The loop of the cleanup -/

/-- One round for each client is enough, and the loop does what `releaseAll` does. -/
theorem releaseLoop_eq (servers : List QrtrService) (b : Bitmaps)
    (clients : List QrtrProxyClient) :
    releaseLoop servers clients.length b clients = some (releaseAll servers b clients) := by
  induction clients generalizing b with
  | nil => rfl
  | cons c rest ih => simp [releaseLoop, releaseAll, releaseQrtrClientId_head, ih]

theorem freeId_of_ne {size : ℕ} {bitmap : ℕ → UInt8} {id j : ℕ} (h : id ≠ j) :
    freeId size bitmap id j = bitmap j := by
  unfold freeId
  split
  · rw [Function.update_of_ne (Ne.symm h)]
  · rfl

/-- A release of clients leaves the other client ids alone. -/
theorem freeClients_client_of_ne {id : ℕ} (gone : List QrtrProxyClient) {b : Bitmaps}
    (h : ∀ c ∈ gone, c.clientId.toNat ≠ id) : (freeClients b gone).client id = b.client id := by
  induction gone generalizing b with
  | nil => rfl
  | cons c gone ih =>
      obtain ⟨hc, hgone⟩ := List.forall_mem_cons.1 h
      exact (ih hgone).trans (freeId_of_ne hc)

theorem freeClients_port_of_ne {id : ℕ} (gone : List QrtrProxyClient) {b : Bitmaps}
    (h : ∀ c ∈ gone, c.portId.toNat ≠ id) : (freeClients b gone).port id = b.port id := by
  induction gone generalizing b with
  | nil => rfl
  | cons c gone ih =>
      obtain ⟨hc, hgone⟩ := List.forall_mem_cons.1 h
      exact (ih hgone).trans (freeId_of_ne hc)

/-! ### The arrays with refused clients -/

theorem Table.marksExactly {size : ℕ} {bitmap : ℕ → UInt8} {ids : List ℕ}
    (h : Table size bitmap ids) : MarksExactly size bitmap ids := by
  intro id h1
  constructor
  · rintro ⟨hlt, hne⟩
    exact (h.records.taken_iff id h1 hlt).1 (by simpa using hne)
  · intro hid
    have hlt := (h.records.range id hid).2
    exact ⟨hlt, by simpa using (h.records.taken_iff id h1 hlt).2 hid⟩

/-- The numbers in use fit into a byte. -/
theorem Table.lt_of_mem {size : ℕ} {bitmap : ℕ → UInt8} {ids : List ℕ} (h : Table size bitmap ids)
    {id : ℕ} (hid : id ∈ ids) : id < 256 := by
  rw [← h.stored id hid]
  exact UInt8.toNat_lt _

theorem Table.length_le {size : ℕ} {bitmap : ℕ → UInt8} {ids : List ℕ} (h : Table size bitmap ids) :
    ids.length ≤ 255 :=
  FirstFree.length_le_of_forall_lt h.records.nodup fun id hid =>
    ⟨(h.records.range id hid).1, Nat.le_of_lt_succ (h.lt_of_mem hid)⟩

/-- A number that was marked once and has gone is no longer marked. -/
theorem Table.eq_zero_of_gone {size : ℕ} {bitmap bitmap' : ℕ → UInt8} {gone ids : List ℕ}
    (h : Table size bitmap (gone ++ ids)) (h' : Table size bitmap' ids) {id : ℕ}
    (hid : id ∈ gone) : bitmap' id = 0 := by
  obtain ⟨h1, hlt⟩ := h.records.range id (List.mem_append_left _ hid)
  have hnot : id ∉ ids := fun hin =>
    (List.nodup_append.1 h.records.nodup).2.2 id hid id hin rfl
  by_contra hne
  exact hnot ((h'.records.taken_iff id h1 hlt).1 (by simpa using hne))

/-- The release of the number 0 takes no mark off. -/
theorem Table.free_zero {size : ℕ} {bitmap : ℕ → UInt8} {ids : List ℕ}
    (h : Table size bitmap ids) : Table size (freeId size bitmap 0) ids := by
  have hne : ∀ id, 1 ≤ id → freeId size bitmap 0 id = bitmap id := fun id h1 =>
    freeId_of_ne (by omega)
  refine ⟨⟨h.records.nodup, h.records.range, fun id h1 hlt => ?_⟩, fun id hid => ?_⟩
  · rw [hne id h1]
    exact h.records.taken_iff id h1 hlt
  · rw [hne id (h.records.range id hid).1]
    exact h.stored id hid

/-- The client ids other than 0. -/
def idsOf (live : List QrtrProxyClient) : List ℕ :=
  (live.map fun c => c.clientId.toNat).filter fun id => id ≠ 0

/-- The arrays mark the ports of the clients `live`, and those of their client ids that are not 0. -/
structure Marks (b : Bitmaps) (live : List QrtrProxyClient) : Prop where
  clients : Table clientBitmapSize b.client (idsOf live)
  ports : Table portBitmapSize b.port (live.map fun c => c.portId.toNat)

namespace Marks

variable {b : Bitmaps} {c : QrtrProxyClient} {live live' : List QrtrProxyClient}

theorem perm (h : Marks b live) (hp : live.Perm live') : Marks b live' :=
  ⟨h.clients.perm ((hp.map _).filter _), h.ports.perm (hp.map _)⟩

theorem free (h : Marks b (c :: live)) :
    Marks ⟨freeClientId b c.clientId.toNat, freePortId b c.portId.toNat⟩ live := by
  refine ⟨?_, h.ports.free⟩
  have hclients := h.clients
  by_cases h0 : c.clientId.toNat = 0
  · rw [idsOf, List.map_cons, List.filter_cons_of_neg (by simpa using h0)] at hclients
    rw [h0]
    exact hclients.free_zero
  · rw [idsOf, List.map_cons, List.filter_cons_of_pos (by simpa using h0)] at hclients
    exact hclients.free

/-- A client is added: its client id is marked, or it is 0. -/
theorem alloc_client (h : Marks b live) (qmiType : UInt8) :
    Table clientBitmapSize (allocQrtrClientId b qmiType).1.client
      (idsOf ((allocQrtrClientId b qmiType).2 :: live)) := by
  by_cases hroom : (idsOf live).length + 1 < clientBitmapSize
  · obtain ⟨h1, htable⟩ := h.clients.alloc_client hroom qmiType
    rw [idsOf, List.map_cons, List.filter_cons_of_pos (by simp only [decide_eq_true_eq]; omega)]
    exact htable
  · -- no client id is free
    have hnone := h.clients.alloc_eq_none (by omega)
    rw [idsOf, List.map_cons, List.filter_cons_of_neg]
    · simp only [allocQrtrClientId, allocClientId, hnone]
      exact h.clients
    · simp [allocQrtrClientId, allocClientId, hnone]

theorem alloc (h : Marks b live) (hroom : live.length + 1 < 256) (qmiType : UInt8) :
    Marks (allocQrtrClientId b qmiType).1 ((allocQrtrClientId b qmiType).2 :: live) :=
  ⟨h.alloc_client qmiType, h.ports.alloc_port (by rwa [List.length_map]) qmiType⟩

/-- When the first 255 ports are in use, the next client gets the port 256, which is not
marked. -/
theorem alloc_port_full (h : Marks b live) (hfull : 255 ≤ live.length) (qmiType : UInt8) :
    (allocQrtrClientId b qmiType).2.portId = 256 ∧
      (allocQrtrClientId b qmiType).1.port 256 = 0 := by
  have hlen : (live.map fun c => c.portId.toNat).length = 255 :=
    Nat.le_antisymm h.ports.length_le (by rwa [List.length_map])
  obtain ⟨id, hfree, hle⟩ := h.ports.records.exists_firstFree
    (by rw [hlen]; decide)
  obtain ⟨h1, -, -⟩ := FirstFree.firstFree_some hfree
  -- the ports in use are those from 1 to 255
  have hid : id = 256 := by
    by_contra hne
    refine h.ports.records.not_mem_firstFree hfree (FirstFree.mem_of_le_length
      h.ports.records.nodup (n := 255) (fun j hj => ?_) (Nat.le_of_eq hlen.symm) h1 ?_)
    · exact ⟨(h.ports.records.range j hj).1, Nat.le_of_lt_succ (h.ports.lt_of_mem hj)⟩
    · omega
  subst hid
  simp only [allocQrtrClientId, allocPortId, allocId, hfree]
  exact ⟨rfl, by rw [Function.update_self]; rfl⟩

theorem marksExactly_clients (h : Marks b live) :
    MarksExactly clientBitmapSize b.client (live.map fun c => c.clientId.toNat) := by
  intro id h1
  rw [h.clients.marksExactly id h1, idsOf, List.mem_filter]
  simp only [decide_eq_true_eq]
  exact ⟨fun hid => hid.1, fun hid => ⟨hid, by omega⟩⟩

theorem noLeak {p : Proxy} (h : Marks p.bitmaps p.live) : NoLeak p :=
  ⟨h.marksExactly_clients, h.ports.marksExactly⟩

end Marks

/-! ### Steps -/

theorem marks_step {p p' : Proxy} {e : Event} (hm : Marks p.bitmaps p.live) (hok : PortLeft p e)
    (h : step p e = some p') : Marks p'.bitmaps p'.live := by
  refine step_keeps (P := Marks) ?_ ?_ ?_ hm h
  · intro b l l' hp hl
    exact hl.perm hp
  · intro b c live hl
    exact hl.free
  · rintro clientfd pQMI rfl ha
    exact hm.alloc (hok ha) _

/-- A client that is added when the first 255 ports are in use has a port that is not marked. -/
theorem not_noLeak_step {p p' : Proxy} {e : Event} (hm : Marks p.bitmaps p.live)
    (hbad : ¬ PortLeft p e) (h : step p e = some p') : ¬ NoLeak p' := by
  cases e with
  | request clientfd pQMI =>
      simp only [PortLeft, Classical.not_imp, Nat.not_lt] at hbad
      obtain ⟨ha, hfull⟩ := hbad
      obtain ⟨hb, hlive⟩ := step_allocates ha h
      obtain ⟨hport, hzero⟩ := hm.alloc_port_full (by omega) (reqQmiType pQMI)
      intro hleak
      have hmem : 256 ∈ p'.live.map fun c => c.portId.toNat :=
        List.mem_map.2 ⟨_, hlive.mem_iff.2 (List.mem_cons_self ..), by rw [hport]; rfl⟩
      refine ((hleak.ports 256 (by decide)).2 hmem).2 ?_
      rw [hb]
      exact hzero
  | accept clientfd => exact absurd trivial hbad
  | hangup clientfd => exact absurd trivial hbad
  | packet pkt => exact absurd trivial hbad

/-- The cleanup of a connection when the arrays are right. -/
theorem Marks.cleanup {p : Proxy} (h : Marks p.bitmaps p.live) {clientfd : ℤ}
    {qrtrCon : QrtrProxyConnection}
    (hcon : p.qrtrProxyConnection.find? (fun con => con.clientFd = clientfd) = some qrtrCon) :
    Cleanup p clientfd qrtrCon := by
  obtain ⟨hlive, hb⟩ := cleanupQrtrConnection_gone hcon
  have hafter : Marks (freeClients p.bitmaps qrtrCon.clientQnode)
      (cleanupQrtrConnection p clientfd).1.live :=
    freeClients_keeps (P := Marks) (fun _ _ _ hm => hm.free) _ (h.perm hlive)
  have hbefore : Marks p.bitmaps
      (qrtrCon.clientQnode ++ (cleanupQrtrConnection p clientfd).1.live) := h.perm hlive
  constructor
  · refine ⟨qrtrCon.clientQnode.length,
      (releaseAll p.qrtrServerList p.bitmaps qrtrCon.clientQnode).2, ?_⟩
    rw [releaseLoop_eq, hb, ← releaseAll_eq_freeClients p.qrtrServerList]
  · exact hlive
  · intro c hc hne
    have hclients := hbefore.clients
    rw [idsOf, List.map_append, List.filter_append] at hclients
    rw [hb]
    refine hclients.eq_zero_of_gone hafter.clients (List.mem_filter.2 ⟨List.mem_map_of_mem hc, ?_⟩)
    have h0 : c.clientId.toNat ≠ 0 := fun h0 => hne (UInt8.toNat_inj.1 h0)
    simpa using h0
  · intro c hc _
    have hports := hbefore.ports
    rw [List.map_append] at hports
    rw [hb]
    exact hports.eq_zero_of_gone hafter.ports (List.mem_map_of_mem hc)
  · intro id hid
    rw [hb]
    exact freeClients_client_of_ne _ hid
  · intro id hid
    rw [hb]
    exact freeClients_port_of_ne _ hid

/-! ### Whole runs -/

theorem marks_start (servers : List QrtrService) :
    Marks (start servers).bitmaps (start servers).live :=
  ⟨(tables_start servers).clients, (tables_start servers).ports⟩

/-- No number leaks, and the cleanup of any connection would release what the connection has. -/
def Accounted (p : Proxy) : Prop :=
  NoLeak p ∧ ∀ clientfd qrtrCon,
    p.qrtrProxyConnection.find? (fun con => con.clientFd = clientfd) = some qrtrCon →
      Cleanup p clientfd qrtrCon

/-- A run in which nothing leaks asks for a client id only while one of the first 255 ports is
free. -/
theorem portLeft_of_noLeak {p : Proxy} {evs : List Event} (hm : Marks p.bitmaps p.live)
    (h : ∀ q ∈ EventRun.states step p evs, NoLeak q) :
    ∀ m ∈ EventRun.moves step p evs, PortLeft m.1 m.2 :=
  (EventRun.holds_iff (fun p => Marks p.bitmaps p.live) NoLeak (fun _ _ => True) PortLeft
    (fun _ hp => hp.noLeak)
    (fun _ _ _ hp _ hok hs => marks_step hp hok hs)
    (fun _ _ _ hp _ hno hs => not_noLeak_step hp hno hs)
    hm (fun _ _ => trivial)).1 h

/-- The arrays are right all along a run that asks for a client id only while one of the first 255
ports is free. -/
theorem marks_run {p : Proxy} {evs : List Event} (hm : Marks p.bitmaps p.live)
    (h : ∀ m ∈ EventRun.moves step p evs, PortLeft m.1 m.2) :
    ∀ q ∈ EventRun.states step p evs, Marks q.bitmaps q.live :=
  EventRun.guarded_invariant (fun p => Marks p.bitmaps p.live) PortLeft
    (fun _ _ _ hp hok hs => marks_step hp hok hs) hm h

/-- **No number leaks all along a run exactly when a client is added only while one of the first 255
ports is free.** -/
theorem noLeak_iff (servers : List QrtrService) (evs : List Event) :
    (∀ p ∈ EventRun.states step (start servers) evs, Accounted p) ↔
      ∀ m ∈ EventRun.moves step (start servers) evs, PortLeft m.1 m.2 := by
  constructor
  · intro h
    exact portLeft_of_noLeak (marks_start servers) fun p hp => (h p hp).1
  · intro h p hp
    have hm : Marks p.bitmaps p.live := marks_run (marks_start servers) h p hp
    exact ⟨hm.noLeak, fun clientfd qrtrCon hcon => hm.cleanup hcon⟩

/-- One client asks for a client id of the same service 256 times. -/
theorem not_noLeak : ¬ ∀ (servers : List QrtrService) (evs : List Event),
    ∀ p ∈ EventRun.states step (start servers) evs, NoLeak p := by
  intro hall
  obtain ⟨servers, evs, q, hq, hlen, -⟩ := exists_live_length_start 256
  have hok := portLeft_of_noLeak (marks_start servers) (hall servers evs)
  have hle := (marks_run (marks_start servers) hok q hq).ports.length_le
  rw [List.length_map] at hle
  omega

end QrtrProxy

/-
**The services that the QRTR proxy knows.**

A service of the modem comes and goes: the modem announces each of its servers by a packet, and
takes it back by another one, for instance when it restarts.  The proxy sends the messages of a
client to the server that `find_qrtr_service` finds.  The function that handles both packets adds
each server that is announced to the list, but removes none, and the search takes the first of the
list.

Main definitions:

* `QrtrProxy.Registry` — the proxy together with the servers that the modem has announced and not
  taken back;
* `QrtrProxy.Current` — the search finds the server that was announced last, and none when all have
  been taken back;
* `QrtrProxy.Stable` — a service is not announced at a second address, and no server is taken back.

Main results:

* `QrtrProxy.current_iff` — **the search is right all along a run exactly when no server of the
  modem moves or goes**;
* `QrtrProxy.not_current` — a server that is taken back.
-/
import OpenwrtPackage.Lib.Directory
import OpenwrtPackage.QrtrProxy.Ids

set_option relaxedAutoImplicit false
set_option autoImplicit false

namespace QrtrProxy

open Qmi Bytes

/-! ### What the modem has announced -/

/-- The node and the port of a server. -/
abbrev Address := UInt32 × UInt32

/-- `pkt->server.service` -/
def Packet.service (pkt : Packet) : UInt32 := le32At pkt.payload 4

/-- `pkt->server.node` and `pkt->server.port` -/
def Packet.address (pkt : Packet) : Address := (le32At pkt.payload 12, le32At pkt.payload 16)

/-- The proxy, and the servers of the modem that have been announced and not taken back, in the
order of the announcements. -/
structure Registry where
  proxy : Proxy
  announced : List (UInt32 × Address)

/-- What a packet says about the servers of the modem. -/
def announcedAfter (announced : List (UInt32 × Address)) : Event → List (UInt32 × Address)
  | .packet pkt =>
      if pkt.address.1 ≠ nodeModem then announced
      else if pkt.hdr.type = qrtrTypeNewServer then
        Directory.announce announced pkt.service pkt.address
      else if pkt.hdr.type = qrtrTypeDelServer then
        Directory.withdraw announced pkt.service pkt.address
      else announced
  | _ => announced

def Registry.step (r : Registry) (e : Event) : Option Registry :=
  (QrtrProxy.step r.proxy e).map fun p => ⟨p, announcedAfter r.announced e⟩

/-- Nothing has been announced. -/
def Registry.start : Registry := ⟨QrtrProxy.start [], []⟩

/-- For each service number the search gives the server that was announced last, of those that have
not been taken back. -/
def Current (r : Registry) : Prop :=
  ∀ t : UInt8, t ≠ 0 →
    (findQrtrService r.proxy.qrtrServerList t).map (fun srv => (srv.node, srv.port)) =
      Directory.newest r.announced t.toUInt32

/-- The service has a number that a client can ask for. -/
def IsQmiService (service : UInt32) : Prop := 1 ≤ service.toNat ∧ service.toNat ≤ 255

instance (service : UInt32) : Decidable (IsQmiService service) :=
  inferInstanceAs (Decidable (_ ∧ _))

/-- No service of the modem is announced at a second address, and none that is there is taken
back. -/
def Stable (r : Registry) : Event → Prop
  | .packet pkt =>
      pkt.address.1 = nodeModem → IsQmiService pkt.service →
        (pkt.hdr.type = qrtrTypeNewServer →
          ∀ a ∈ Directory.addresses r.announced pkt.service, a = pkt.address) ∧
        (pkt.hdr.type = qrtrTypeDelServer →
          pkt.address ∉ Directory.addresses r.announced pkt.service)
  | _ => True

/-! ### The list of the proxy -/

/-- The list of servers as a directory. -/
def entries (servers : List QrtrService) : List (UInt32 × Address) :=
  servers.map fun srv => (srv.service, (srv.node, srv.port))

/-- The search takes the oldest entry. -/
theorem findQrtrService_eq_oldest (servers : List QrtrService) (t : UInt8) :
    (findQrtrService servers t).map (fun srv => (srv.node, srv.port)) =
      Directory.oldest (entries servers) t.toUInt32 := by
  rw [Directory.oldest_eq_find?, entries, List.find?_map, Option.map_map]
  rfl

theorem cleanupQrtrConnection_servers (p : Proxy) (clientfd : ℤ) :
    (cleanupQrtrConnection p clientfd).1.qrtrServerList = p.qrtrServerList := by
  unfold cleanupQrtrConnection
  split <;> rfl

theorem handleServerChange_entries (p : Proxy) (pkt : Packet) :
    entries (handleServerChange p pkt).qrtrServerList =
      if pkt.address.1 = nodeModem ∧ pkt.hdr.type = qrtrTypeNewServer then
        Directory.announce (entries p.qrtrServerList) pkt.service pkt.address
      else entries p.qrtrServerList := by
  unfold handleServerChange
  by_cases hnode : le32At pkt.payload 12 = nodeModem
  · rw [if_neg (not_not.2 hnode)]
    by_cases htype : pkt.hdr.type = qrtrTypeNewServer
    · rw [if_pos htype, if_pos ⟨hnode, htype⟩]
      simp [entries, Directory.announce, Packet.service, Packet.address]
    · rw [if_neg htype, if_neg fun h => htype h.2]
  · rw [if_pos hnode, if_neg fun h => hnode h.1]

/-- What a packet does to the list: a server that the modem announces is added. -/
theorem recvQrtrFromDev_entries (p : Proxy) (pkt : Packet) :
    entries (recvQrtrFromDev p pkt).1.qrtrServerList =
      if pkt.address.1 = nodeModem ∧ pkt.hdr.type = qrtrTypeNewServer then
        Directory.announce (entries p.qrtrServerList) pkt.service pkt.address
      else entries p.qrtrServerList := by
  unfold recvQrtrFromDev
  split
  · rename_i hhello
    rw [if_neg]
    rintro ⟨-, hnew⟩
    exact absurd (hhello.symm.trans hnew) (by decide)
  · split
    · exact handleServerChange_entries p pkt
    · rename_i hneither
      have hnot : ¬ (pkt.address.1 = nodeModem ∧ pkt.hdr.type = qrtrTypeNewServer) :=
        fun h => hneither (.inl h.2)
      rw [if_neg hnot]
      split <;> rfl

/-- The other events leave the list alone. -/
theorem step_servers {p p' : Proxy} {e : Event} (h : step p e = some p')
    (he : ∀ pkt, e ≠ .packet pkt) : p'.qrtrServerList = p.qrtrServerList := by
  cases e with
  | accept clientfd =>
      simp only [step] at h
      split at h
      · obtain rfl := Option.some.inj h
        rfl
      · simp at h
  | request clientfd pQMI =>
      simp only [step] at h
      split at h
      · obtain rfl := Option.some.inj h
        exact recvQmiFromClient_servers ..
      · simp at h
  | hangup clientfd =>
      simp only [step] at h
      split at h
      · obtain rfl := Option.some.inj h
        exact cleanupQrtrConnection_servers ..
      · simp at h
  | packet pkt => exact absurd rfl (he pkt)

/-! ### The list while servers stay -/

/-- For each service number the list has the servers that are announced, and they have one
address. -/
structure InStep (r : Registry) : Prop where
  same : ∀ service, IsQmiService service →
    Directory.addresses (entries r.proxy.qrtrServerList) service =
      Directory.addresses r.announced service
  one : ∀ service, IsQmiService service → ∀ a ∈ Directory.addresses r.announced service,
    ∀ b ∈ Directory.addresses r.announced service, a = b

theorem isQmiService_toUInt32 {t : UInt8} (h : t ≠ 0) : IsQmiService t.toUInt32 := by
  have hlt := t.toNat_lt
  have h0 : t.toNat ≠ 0 := fun h0 => h (UInt8.toNat_inj.1 h0)
  rw [IsQmiService, UInt8.toNat_toUInt32]
  omega

theorem exists_toUInt32 {service : UInt32} (h : IsQmiService service) :
    ∃ t : UInt8, t ≠ 0 ∧ t.toUInt32 = service := by
  obtain ⟨h1, h255⟩ := h
  have ht : (UInt8.ofNat service.toNat).toNat = service.toNat := by
    rw [UInt8.toNat_ofNat']
    omega
  refine ⟨UInt8.ofNat service.toNat, fun h0 => ?_, ?_⟩
  · rw [h0, UInt8.toNat_zero] at ht
    omega
  · rw [← UInt32.toNat_inj, UInt8.toNat_toUInt32, ht]

theorem InStep.current {r : Registry} (h : InStep r) : Current r := by
  intro t ht
  have hs := isQmiService_toUInt32 ht
  rw [findQrtrService_eq_oldest]
  have hsame : Directory.oldest (entries r.proxy.qrtrServerList) t.toUInt32 =
      Directory.oldest r.announced t.toUInt32 := by
    rw [Directory.oldest, h.same _ hs, Directory.oldest]
  rw [hsame]
  cases hl : Directory.addresses r.announced t.toUInt32 with
  | nil => rw [Directory.oldest, Directory.newest, hl]; rfl
  | cons a rest =>
      refine Directory.oldest_eq_newest fun b hb => h.one _ hs b hb a ?_
      rw [hl]
      exact List.mem_cons_self ..

/-- The modem announces a server, and the service has no other address. -/
theorem InStep.announce {r : Registry} (h : InStep r) {p' : Proxy} {service : UInt32} {a : Address}
    (hp : entries p'.qrtrServerList =
      Directory.announce (entries r.proxy.qrtrServerList) service a)
    (hone : IsQmiService service → ∀ b ∈ Directory.addresses r.announced service, b = a) :
    InStep ⟨p', Directory.announce r.announced service a⟩ := by
  constructor
  · intro service' hs
    rw [hp]
    by_cases heq : service = service'
    · subst heq
      rw [Directory.addresses_announce_self, Directory.addresses_announce_self, h.same _ hs]
    · rw [Directory.addresses_announce_of_ne _ heq, Directory.addresses_announce_of_ne _ heq,
        h.same _ hs]
  · intro service' hs
    by_cases heq : service = service'
    · subst heq
      have hall : ∀ b ∈ Directory.addresses (Directory.announce r.announced service a) service,
          b = a := by
        intro b hb
        rw [Directory.addresses_announce_self] at hb
        rcases List.mem_append.1 hb with hb | hb
        · exact hone hs b hb
        · exact List.mem_singleton.1 hb
      intro b hb c hc
      exact (hall b hb).trans (hall c hc).symm
    · rw [Directory.addresses_announce_of_ne _ heq]
      exact h.one _ hs

/-- The modem takes back a server that is not there. -/
theorem InStep.withdraw {r : Registry} (h : InStep r) {p' : Proxy} {service : UInt32} {a : Address}
    (hp : entries p'.qrtrServerList = entries r.proxy.qrtrServerList)
    (hnot : IsQmiService service → a ∉ Directory.addresses r.announced service) :
    InStep ⟨p', Directory.withdraw r.announced service a⟩ := by
  have haddr : ∀ service', IsQmiService service' →
      Directory.addresses (Directory.withdraw r.announced service a) service' =
        Directory.addresses r.announced service' := by
    intro service' hs
    by_cases heq : service = service'
    · subst heq
      rw [Directory.addresses_withdraw_self, List.filter_eq_self]
      intro b hb
      have hne : b ≠ a := by
        rintro rfl
        exact hnot hs hb
      simpa using hne
    · exact Directory.addresses_withdraw_of_ne _ heq _
  constructor
  · intro service' hs
    rw [hp, haddr _ hs, h.same _ hs]
  · intro service' hs
    rw [haddr _ hs]
    exact h.one _ hs

/-- A packet by which no server moves or goes keeps the list right. -/
theorem inStep_packet {r : Registry} {pkt : Packet} (h : InStep r) (hok : Stable r (.packet pkt)) :
    InStep ⟨(recvQrtrFromDev r.proxy pkt).1, announcedAfter r.announced (.packet pkt)⟩ := by
  have hentries := recvQrtrFromDev_entries r.proxy pkt
  simp only [announcedAfter]
  by_cases hnode : pkt.address.1 = nodeModem
  · rw [if_neg (not_not.2 hnode)]
    by_cases hnew : pkt.hdr.type = qrtrTypeNewServer
    · rw [if_pos ⟨hnode, hnew⟩] at hentries
      rw [if_pos hnew]
      exact h.announce hentries fun hq => (hok hnode hq).1 hnew
    · rw [if_neg fun hc => hnew hc.2] at hentries
      rw [if_neg hnew]
      split
      · rename_i hdel
        exact h.withdraw hentries fun hq => (hok hnode hq).2 hdel
      · exact ⟨fun service hq => by rw [hentries]; exact h.same service hq, h.one⟩
  · rw [if_neg fun hc => hnode hc.1] at hentries
    rw [if_pos hnode]
    exact ⟨fun service hq => by rw [hentries]; exact h.same service hq, h.one⟩

/-- An event that is no packet leaves the registry in step. -/
theorem inStep_other {r : Registry} {p' : Proxy} (h : InStep r)
    (hp : p'.qrtrServerList = r.proxy.qrtrServerList) : InStep ⟨p', r.announced⟩ :=
  ⟨fun service hq => by rw [hp]; exact h.same service hq, h.one⟩

/-- Steps in which no server moves or goes keep the list right. -/
theorem inStep_step {r r' : Registry} {e : Event} (h : InStep r) (hok : Stable r e)
    (hs : r.step e = some r') : InStep r' := by
  obtain ⟨p', hp', rfl⟩ := Option.map_eq_some_iff.1 hs
  cases e with
  | packet pkt =>
      obtain rfl := Option.some.inj hp'
      exact inStep_packet h hok
  | accept clientfd => exact inStep_other h (step_servers hp' fun _ => Event.noConfusion)
  | request clientfd pQMI => exact inStep_other h (step_servers hp' fun _ => Event.noConfusion)
  | hangup clientfd => exact inStep_other h (step_servers hp' fun _ => Event.noConfusion)

/-- When a service is announced at a second address, the search still finds the first. -/
theorem InStep.not_current_announce {r : Registry} (h : InStep r) {p' : Proxy} {service : UInt32}
    {a b : Address} (hq : IsQmiService service)
    (hp : entries p'.qrtrServerList =
      Directory.announce (entries r.proxy.qrtrServerList) service a)
    (hb : b ∈ Directory.addresses r.announced service) (hne : b ≠ a) :
    ¬ Current ⟨p', Directory.announce r.announced service a⟩ := by
  intro hcur
  obtain ⟨t, ht, rfl⟩ := exists_toUInt32 hq
  have hfind := hcur t ht
  rw [findQrtrService_eq_oldest] at hfind
  simp only [Directory.oldest, Directory.newest, hp, Directory.addresses_announce_self, h.same _ hq,
    List.getLast?_concat] at hfind
  -- the first of the list is an old address
  obtain ⟨c, rest, hl⟩ := List.exists_cons_of_ne_nil (List.ne_nil_of_mem hb)
  rw [hl, List.cons_append, List.head?_cons] at hfind
  have hc : c ∈ Directory.addresses r.announced t.toUInt32 := by
    rw [hl]
    exact List.mem_cons_self ..
  exact hne ((h.one _ hq b hb c hc).trans (Option.some.inj hfind))

/-- When the server of a service is taken back, the search still finds it. -/
theorem InStep.not_current_withdraw {r : Registry} (h : InStep r) {p' : Proxy} {service : UInt32}
    {a : Address} (hq : IsQmiService service)
    (hp : entries p'.qrtrServerList = entries r.proxy.qrtrServerList)
    (ha : a ∈ Directory.addresses r.announced service) :
    ¬ Current ⟨p', Directory.withdraw r.announced service a⟩ := by
  intro hcur
  obtain ⟨t, ht, rfl⟩ := exists_toUInt32 hq
  have hfind := hcur t ht
  have hnone : (Directory.addresses r.announced t.toUInt32).filter (fun b => b ≠ a) = [] := by
    refine List.filter_eq_nil_iff.2 fun b hb => ?_
    simpa using h.one _ hq b hb a ha
  rw [findQrtrService_eq_oldest] at hfind
  simp only [Directory.oldest, Directory.newest, hp, Directory.addresses_withdraw_self,
    h.same _ hq, hnone, List.getLast?_nil, List.head?_eq_none_iff] at hfind
  rw [hfind] at ha
  exact absurd ha List.not_mem_nil

/-- When a server moves or goes, the search finds the wrong one. -/
theorem not_current_step {r r' : Registry} {e : Event} (h : InStep r) (hbad : ¬ Stable r e)
    (hs : r.step e = some r') : ¬ Current r' := by
  obtain ⟨p', hp', rfl⟩ := Option.map_eq_some_iff.1 hs
  cases e with
  | accept clientfd => exact absurd trivial hbad
  | request clientfd pQMI => exact absurd trivial hbad
  | hangup clientfd => exact absurd trivial hbad
  | packet pkt =>
      obtain rfl := Option.some.inj hp'
      simp only [Stable, Classical.not_imp] at hbad
      obtain ⟨hnode, hq, hbad⟩ := hbad
      have hentries := recvQrtrFromDev_entries r.proxy pkt
      simp only [announcedAfter]
      rw [if_neg (not_not.2 hnode)]
      by_cases hnew : pkt.hdr.type = qrtrTypeNewServer
      · have hdel : ¬ pkt.hdr.type = qrtrTypeDelServer := by
          rw [hnew]
          decide
        have hmoved : ¬ ∀ a ∈ Directory.addresses r.announced pkt.service, a = pkt.address :=
          fun hall => hbad ⟨fun _ => hall, fun hc => absurd hc hdel⟩
        simp only [not_forall] at hmoved
        obtain ⟨b, hb, hne⟩ := hmoved
        rw [if_pos ⟨hnode, hnew⟩] at hentries
        rw [if_pos hnew]
        exact h.not_current_announce hq hentries hb hne
      · have hgone : pkt.hdr.type = qrtrTypeDelServer ∧
            pkt.address ∈ Directory.addresses r.announced pkt.service := by
          by_contra hno
          exact hbad ⟨fun hc => absurd hc hnew, fun hdel hin => hno ⟨hdel, hin⟩⟩
        rw [if_neg fun hc => hnew hc.2] at hentries
        rw [if_neg hnew, if_pos hgone.1]
        exact h.not_current_withdraw hq hentries hgone.2

/-! ### Whole runs -/

theorem inStep_start : InStep Registry.start :=
  ⟨fun _ _ => rfl, fun _ _ _ h => absurd h List.not_mem_nil⟩

/-- **The search finds the server that was announced last, all along a run, exactly when no server
of the modem moves or goes.** -/
theorem current_iff (evs : List Event) :
    (∀ r ∈ EventRun.states Registry.step .start evs, Current r) ↔
      ∀ m ∈ EventRun.moves Registry.step .start evs, Stable m.1 m.2 :=
  EventRun.holds_iff InStep Current (fun _ _ => True) Stable
    (fun _ h => h.current)
    (fun _ _ _ h _ hok hs => inStep_step h hok hs)
    (fun _ _ _ h _ hno hs => not_current_step h hno hs)
    inStep_start (fun _ _ => trivial)

/-- A control packet about the server of the WDS service at port 9 of the modem. -/
def wdsServerPkt (type : UInt32) : Packet :=
  ⟨⟨qrtrProtoVer1, type, nodeModem, qrtrPortCtrl, 0, 20, nodeMyself, qrtrPortCtrl⟩,
    le32 type ++ le32 1 ++ le32 0 ++ le32 nodeModem ++ le32 9⟩

/-- The modem announces its only WDS server, and takes it back. -/
theorem not_current : ¬ ∀ evs : List Event,
    ∀ r ∈ EventRun.states Registry.step .start evs, Current r := by
  intro hall
  have hstale : ∃ r ∈ EventRun.states Registry.step .start
      [.packet (wdsServerPkt qrtrTypeNewServer), .packet (wdsServerPkt qrtrTypeDelServer)],
      (findQrtrService r.proxy.qrtrServerList 1).map (fun srv => (srv.node, srv.port)) ≠
        Directory.newest r.announced (1 : UInt8).toUInt32 := by
    decide +kernel
  obtain ⟨r, hr, hne⟩ := hstale
  exact hne (hall _ r hr 1 (by decide))

end QrtrProxy

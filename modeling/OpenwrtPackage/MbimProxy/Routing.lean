/-
**Where the answers of the device go.**

An answer carries the number of the slot whose client made the request.  It reaches that client as
long as the slot is still its own.  A slot is given to the next client as soon as it is free; if the
device still owes an answer for it, the new client gets that answer.

* `MbimProxy.World.AnswersRouted` — whatever answer the device gives next, it reaches the client whose
  request it answers, with the transaction id of that request, and nobody if that client is gone;
* `MbimProxy.World.SlotQuiet` — a client that connects does not get a slot that an answer is still
  owed for;
* `MbimProxy.World.answersRouted_iff` — **answers are routed so all along a run exactly when every client
  that connects in it gets such a slot**;
* `MbimProxy.World.not_answersRouted` — a run in which a new client gets the answer of an old one.
-/
import OpenwrtPackage.MbimProxy.World

set_option relaxedAutoImplicit false
set_option autoImplicit false

namespace MbimProxy

namespace World

/-- Every answer the device can give next goes where it belongs. -/
def AnswersRouted (w : World) : Prop :=
  w.running = true → ∀ q ∈ w.inFlight, ∀ m : Message, m.transactionId = q.devTransactionId →
    receivers w.sockets (handleDeviceResponse w.proxy.cmClients m) =
      if w.sockets.Alive q.con then [(q.con, { m with transactionId := q.transactionId })] else []

/-- Clients use the transaction ids 1 to 0xFFFFFF. -/
def TransactionIdOk (_ : World) : Event → Prop
  | .request _ m => m.transactionId ≠ 0 ∧ m.transactionId ≤ tidMask
  | _ => True

instance (w : World) : (e : Event) → Decidable (w.TransactionIdOk e)
  | .request _ m => inferInstanceAs (Decidable (m.transactionId ≠ 0 ∧ m.transactionId ≤ tidMask))
  | .connect _ | .openDone _ _ | .depart _ _ | .answer _ _ | .unsolicited _ | .deviceLost =>
      isTrue trivial

/-- The first free slot, which a client that connects will get, has no request in flight.  Other
events are not restricted. -/
def SlotQuiet (w : World) : Event → Prop
  | .connect _ => ∀ i ∈ firstSlot fun i => (w.proxy.cmClients i).clientFd ≤ 0,
      ∀ q ∈ w.inFlight, slotOf q.devTransactionId ≠ i + 1
  | _ => True

instance (w : World) : (e : Event) → Decidable (w.SlotQuiet e)
  | .connect _ =>
      inferInstanceAs (Decidable (∀ i ∈ firstSlot fun i => (w.proxy.cmClients i).clientFd ≤ 0,
        ∀ q ∈ w.inFlight, slotOf q.devTransactionId ≠ i + 1))
  | .openDone _ _ | .request _ _ | .depart _ _ | .answer _ _ | .unsolicited _ | .deviceLost =>
      isTrue trivial

/-- Where the request `q` in flight has come from: the slot whose number it carries is that of its
client, or it is free and the client is gone. -/
structure Tracked (w : World) (q : InFlight) : Prop where
  known : q.con < w.sockets.next
  ne_zero : q.transactionId ≠ 0
  le_mask : q.transactionId ≤ tidMask
  slot : ∃ i : Fin cmMaxClient, q.devTransactionId = pack q.transactionId (i + 1) ∧
    ((w.proxy.cmClients i).clientFd ≤ 0 ∧ ¬ w.sockets.Alive q.con ∨
      ((w.proxy.cmClients i).clientFd, q.con) ∈ w.sockets.entries)

/-- What the steps that leave slots quiet keep. -/
structure RouteInv (w : World) : Prop where
  served : w.Served
  tracked : ∀ q ∈ w.inFlight, w.Tracked q

/-! ### The invariant routes answers -/

theorem idx_lt (i : Fin cmMaxClient) : (i : ℕ) + 1 < 256 := by
  have := i.isLt
  simp only [cmMaxClient] at this
  omega

/-- What becomes of an answer: it is given to the client in the slot whose number it carries. -/
theorem handleDeviceResponse_pack {w : World} (hs : w.Served) {tid : UInt32} (h0 : tid ≠ 0)
    (ht : tid ≤ tidMask) (i : Fin cmMaxClient) {m : Message}
    (hm : m.transactionId = pack tid (i + 1)) :
    handleDeviceResponse w.proxy.cmClients m =
      if 0 < (w.proxy.cmClients i).clientFd then
        [.toClient (w.proxy.cmClients i).clientFd { m with transactionId := tid }] else [] := by
  have hne : ¬ m.transactionId = 0 := hm ▸ pack_ne_zero h0 ht (idx_lt i)
  have hslot : slotOf m.transactionId = i + 1 := hm ▸ slotOf_pack ht (idx_lt i)
  have hback : m.transactionId &&& tidMask = tid := hm ▸ pack_and_tidMask ht (idx_lt i)
  -- no other occupied slot has this number
  have honly : ∀ j, (w.proxy.cmClients j).clientIdx = (i : ℕ) + 1 ∧
      0 < (w.proxy.cmClients j).clientFd → j = i := by
    rintro j ⟨hidx, hpos⟩
    have hj := hs.slotIdx j hpos
    exact Fin.ext (by omega)
  rw [handleDeviceResponse, if_neg hne, hslot, hback]
  by_cases hpos : 0 < (w.proxy.cmClients i).clientFd
  · rw [if_pos hpos, firstSlot_eq_some (i := i)]
    · simpa using ⟨hs.slotIdx i hpos, hpos⟩
    · intro j hj
      exact honly j (by simpa using hj)
  · rw [if_neg hpos]
    cases hfirst : firstSlot fun j => (w.proxy.cmClients j).clientIdx = (i : ℕ) + 1 ∧
        0 < (w.proxy.cmClients j).clientFd with
    | none => rfl
    | some j =>
        have hj : (w.proxy.cmClients j).clientIdx = (i : ℕ) + 1 ∧
            0 < (w.proxy.cmClients j).clientFd := by
          simpa using firstSlot_some hfirst
        exact absurd (honly j hj ▸ hj.2) hpos

theorem Served.pos_of_mem {w : World} (hs : w.Served) {fd : ℤ} {c : ℕ}
    (h : (fd, c) ∈ w.sockets.entries) : 0 < fd :=
  ((hs.linked fd).1 (SocketTable.mem_fds_iff.2 ⟨c, h⟩)).1

theorem RouteInv.routed {w : World} (h : w.RouteInv) : AnswersRouted w := by
  intro _ q hq m hm
  have ht := h.tracked q hq
  obtain ⟨i, hi, hslot⟩ := ht.slot
  rw [handleDeviceResponse_pack h.served ht.ne_zero ht.le_mask i (hm.trans hi)]
  rcases hslot with ⟨hfree, hgone⟩ | hmem
  · rw [if_neg (by omega), if_neg hgone]
    rfl
  · have halive : w.sockets.Alive q.con := SocketTable.alive_iff.2 ⟨_, hmem⟩
    rw [if_pos (h.served.pos_of_mem hmem), if_pos halive]
    simp [receivers, SocketTable.owner_eq_some_iff.2 hmem]

/-! ### Steps that keep the invariant -/

/-- A request in flight stays tracked when no slot and no descriptor changes. -/
theorem Tracked.congr {w w' : World} {q : InFlight} (h : w.Tracked q)
    (hslots : w'.proxy.cmClients = w.proxy.cmClients) (hsock : w'.sockets = w.sockets) :
    w'.Tracked q where
  known := hsock ▸ h.known
  ne_zero := h.ne_zero
  le_mask := h.le_mask
  slot := by
    rw [hslots, hsock]
    exact h.slot

theorem tracked_connect {w : World} {clientFd : ℤ} (hfd : clientFd ∉ w.sockets.fds)
    (hquiet : w.SlotQuiet (.connect clientFd)) {q : InFlight} (hq : q ∈ w.inFlight)
    (h : w.Tracked q) : (w.afterConnect clientFd hfd).Tracked q := by
  obtain ⟨i, hi, hslot⟩ := h.slot
  rw [afterConnect_eq]
  split
  · rename_i j hj
    have hfree : (w.proxy.cmClients j).clientFd ≤ 0 := by simpa using firstSlot_some hj
    -- the slot that the new client gets has no request in flight
    have hij : i ≠ j := by
      rintro rfl
      refine hquiet i hj q hq ?_
      rw [hi, slotOf_pack h.le_mask (idx_lt i)]
    refine
      { known := Nat.lt_succ_of_lt h.known
        ne_zero := h.ne_zero
        le_mask := h.le_mask
        slot := ⟨i, hi, ?_⟩ }
    simp only [Function.update_of_ne hij]
    refine hslot.imp (fun hgone => ⟨hgone.1, fun halive => ?_⟩) fun hmem => ?_
    · -- the new connection is none of those that have sent a request
      rcases (SocketTable.alive_accept (h := hfd)).1 halive with halive | heq
      · exact hgone.2 halive
      · exact absurd heq (Nat.ne_of_lt h.known)
    · exact SocketTable.mem_accept.2 (.inl hmem)
  · -- no slot is free, and the new descriptor is closed again
    refine
      { known := Nat.lt_succ_of_lt h.known
        ne_zero := h.ne_zero
        le_mask := h.le_mask
        slot := ⟨i, hi, ?_⟩ }
    have hnew : (clientFd, w.sockets.next) ∈ (w.sockets.accept clientFd hfd).entries :=
      SocketTable.mem_accept.2 (.inr rfl)
    refine hslot.imp (fun hgone => ⟨hgone.1, fun halive => ?_⟩) fun hmem => ?_
    · obtain ⟨halive, hne⟩ := (SocketTable.alive_close hnew).1 halive
      rcases (SocketTable.alive_accept (h := hfd)).1 halive with halive | heq
      · exact hgone.2 halive
      · exact hne heq
    · refine SocketTable.mem_close.2 ⟨SocketTable.mem_accept.2 (.inl hmem), fun heq => hfd ?_⟩
      exact SocketTable.mem_fds_iff.2 ⟨q.con, heq ▸ hmem⟩

theorem tracked_depart {w : World} (hs : w.Served) {fd : ℤ} (hfd : fd ∈ w.sockets.fds)
    {how : Departure} (hp : how.Polled) {q : InFlight} (h : w.Tracked q) :
    (w.afterDepart fd how).Tracked q := by
  obtain ⟨hpos, j, hj⟩ := (hs.linked fd).1 hfd
  obtain ⟨c, hc⟩ := SocketTable.mem_fds_iff.1 hfd
  obtain ⟨i, hi, hslot⟩ := h.slot
  simp only [afterDepart, hs.handleClientDisconnect_eq hj hpos, hp, if_true, applyCloses,
    List.foldl_cons, List.foldl_nil]
  refine
    { known := h.known
      ne_zero := h.ne_zero
      le_mask := h.le_mask
      slot := ⟨i, hi, ?_⟩ }
  by_cases hij : i = j
  · -- the slot is freed; its client, if it is the sender, is the one that goes
    subst hij
    simp only [Function.update_self]
    refine .inl ⟨by omega, fun halive => ?_⟩
    obtain ⟨halive, hne⟩ := (SocketTable.alive_close hc).1 halive
    rcases hslot with ⟨-, hgone⟩ | hmem
    · exact hgone halive
    · exact hne (SocketTable.id_unique (hj ▸ hmem) hc)
  · simp only [Function.update_of_ne hij]
    refine hslot.imp (fun hgone => ⟨hgone.1, fun halive => ?_⟩) fun hmem => ?_
    · exact hgone.2 ((SocketTable.alive_close hc).1 halive).1
    · refine SocketTable.mem_close.2 ⟨hmem, fun heq => hij ?_⟩
      exact hs.slotUnique i j (hs.pos_of_mem hmem) (heq.trans hj.symm)

/-- The request that is forwarded carries the number of the slot of its client. -/
theorem tracked_forwarded {w : World} (hs : w.Served) (hlt : ∀ p ∈ w.sockets.entries,
    p.2 < w.sockets.next) {fd : ℤ} {c : ℕ} (hc : (fd, c) ∈ w.sockets.entries) {m : Message}
    (hm : w.TransactionIdOk (.request fd m)) {q : InFlight}
    (hq : q ∈ forwarded c m.transactionId (handleClientRequest w.proxy.cmClients fd m)) :
    w.Tracked q := by
  obtain ⟨i, hi, hpos, hfirst⟩ := hs.slot_of_mem (SocketTable.mem_fds_iff.2 ⟨c, hc⟩)
  simp only [handleClientRequest, hfirst] at hq
  split at hq
  · simp [forwarded] at hq
  · simp only [forwarded, List.filterMap_cons, List.filterMap_nil, List.mem_singleton] at hq
    subst hq
    exact
      { known := hlt _ hc
        ne_zero := hm.1
        le_mask := hm.2
        slot := ⟨i, by rw [hs.slotIdx i (hi ▸ hpos)], .inr (hi ▸ hc)⟩ }

theorem routeInv_step {w w' : World} {e : Event} (hr : w.running = true → w.RouteInv)
    (henv : w.TransactionIdOk e) (hok : w.SlotQuiet e) (h : w.step e = some w') :
    w'.running = true → w'.RouteInv := by
  intro hrun'
  have hrun := (step_cases h).1
  have hri := hr hrun
  have hs' : w'.Served := served_step (fun _ => hri.served) h hrun'
  refine ⟨hs', ?_⟩
  obtain ⟨-, h⟩ := step_cases h
  cases e with
  | openDone status serverFd =>
      rcases h with rfl | rfl
      · simp [afterError] at hrun'
      · exact fun q hq => (hri.tracked q hq).congr rfl rfl
  | connect clientFd =>
      obtain ⟨-, hfd, rfl⟩ := h
      exact fun q hq => tracked_connect hfd hok hq (hri.tracked q hq)
  | request fd m =>
      obtain ⟨c, hc, rfl⟩ := h
      intro q hq
      rcases List.mem_append.1 hq with hq | hq
      · exact (hri.tracked q hq).congr rfl rfl
      · exact (tracked_forwarded hri.served w.sockets.ids_lt hc henv hq).congr rfl rfl
  | depart fd how =>
      obtain ⟨hfd, rfl⟩ := h
      by_cases hp : how.Polled
      · intro q hq
        have hsame : (w.afterDepart fd how).inFlight = w.inFlight := by simp [afterDepart, hp]
        exact tracked_depart hri.served hfd hp (hri.tracked q (hsame ▸ hq))
      · simp [afterDepart, hp] at hrun'
  | answer i m =>
      obtain rfl : w' = { w with inFlight := w.inFlight.eraseIdx i } := h
      exact fun q hq => (hri.tracked q (List.mem_of_mem_eraseIdx hq)).congr rfl rfl
  | unsolicited m =>
      obtain rfl : w' = w := h
      exact hri.tracked
  | deviceLost =>
      obtain rfl : w' = w.afterError := h
      simp [afterError] at hrun'

/-! ### Steps that do not -/

/-- A client that gets a slot that an answer is still owed for would get that answer. -/
theorem not_answersRouted_connect {w : World} (hr : w.RouteInv) (hrun : w.running = true) {clientFd : ℤ}
    (hpos : 0 < clientFd) (hfd : clientFd ∉ w.sockets.fds)
    (hbad : ¬ w.SlotQuiet (.connect clientFd)) : ¬ AnswersRouted (w.afterConnect clientFd hfd) := by
  simp only [SlotQuiet, not_forall, not_not] at hbad
  obtain ⟨i, hfirst, q, hq, hslot⟩ := hbad
  have hfirst : firstSlot (fun i => (w.proxy.cmClients i).clientFd ≤ 0) = some i := hfirst
  have hfree : (w.proxy.cmClients i).clientFd ≤ 0 := by simpa using firstSlot_some hfirst
  have ht := hr.tracked q hq
  -- the request has come from this slot, and its client is gone
  obtain ⟨j, hj, howner⟩ := ht.slot
  rw [hj, slotOf_pack ht.le_mask (idx_lt j)] at hslot
  have hji : j = i := Fin.ext (by omega)
  subst hji
  have hgone : ¬ w.sockets.Alive q.con := by
    rcases howner with ⟨-, hgone⟩ | hmem
    · exact hgone
    · have := hr.served.pos_of_mem hmem
      omega
  have hs' : (w.afterConnect clientFd hfd).Served := served_connect hr.served hpos hfd
  intro hrouted
  let m : Message := ⟨0, 0, q.devTransactionId, []⟩
  have hnobody : ¬ (w.afterConnect clientFd hfd).sockets.Alive q.con := by
    rw [afterConnect_eq, hfirst]
    intro halive
    rcases (SocketTable.alive_accept (h := hfd)).1 halive with halive | heq
    · exact hgone halive
    · exact absurd heq (Nat.ne_of_lt ht.known)
  have hrun' : (w.afterConnect clientFd hfd).running = true := hrun
  have hempty := hrouted hrun' q hq m rfl
  rw [if_neg hnobody, handleDeviceResponse_pack hs' ht.ne_zero ht.le_mask j hj] at hempty
  have hslot' : ((w.afterConnect clientFd hfd).proxy.cmClients j).clientFd = clientFd := by
    rw [afterConnect_eq, hfirst]
    simp
  have howner' : (w.afterConnect clientFd hfd).sockets.owner clientFd = some w.sockets.next := by
    rw [afterConnect_eq, hfirst]
    exact SocketTable.owner_eq_some_iff.2 ((SocketTable.mem_accept (h := hfd)).2 (.inr rfl))
  rw [hslot', if_pos hpos] at hempty
  simp [receivers, howner'] at hempty

theorem not_answersRouted_step {w w' : World} {e : Event} (hr : w.running = true → w.RouteInv)
    (hbad : ¬ w.SlotQuiet e) (h : w.step e = some w') : ¬ AnswersRouted w' := by
  obtain ⟨hrun, h⟩ := step_cases h
  cases e with
  | connect clientFd =>
      obtain ⟨hpos, hfd, rfl⟩ := h
      exact not_answersRouted_connect (hr hrun) hrun hpos hfd hbad
  | openDone status serverFd => exact absurd trivial hbad
  | request fd m => exact absurd trivial hbad
  | depart fd how => exact absurd trivial hbad
  | answer i m => exact absurd trivial hbad
  | unsolicited m => exact absurd trivial hbad
  | deviceLost => exact absurd trivial hbad

/-! ### Whole runs -/

theorem routeInv_start (devFd : {fd : ℤ // 0 < fd}) : (start devFd).RouteInv :=
  ⟨served_start devFd, by simp [start]⟩

/-- **Answers are routed to the clients they are for all along a run exactly when no client that
connects in it gets a slot that an answer is still owed for.** -/
theorem answersRouted_iff (devFd : {fd : ℤ // 0 < fd}) (evs : List Event)
    (htid : ∀ p ∈ EventRun.moves step (start devFd) evs, p.1.TransactionIdOk p.2) :
    (∀ w ∈ EventRun.states step (start devFd) evs, AnswersRouted w) ↔
      ∀ p ∈ EventRun.moves step (start devFd) evs, p.1.SlotQuiet p.2 :=
  EventRun.holds_iff (fun w => w.running = true → w.RouteInv) AnswersRouted TransactionIdOk SlotQuiet
    (fun _ h hrun => (h hrun).routed hrun)
    (fun _ _ _ hr henv hok hs => routeInv_step hr henv hok hs)
    (fun _ _ _ hr _ hno hs => not_answersRouted_step hr hno hs)
    (fun _ => routeInv_start devFd) htid

/-- A request of no particular kind. -/
def someRequest (transactionId : UInt32) : Message := ⟨3, 12, transactionId, []⟩

/-- Two clients use the same transaction id; one of them leaves after its answer has come, and the
next client gets its slot. -/
def answeredFirst : List Event :=
  [.openDone 0 4, .connect 5, .connect 6, .request 5 (someRequest 1), .request 6 (someRequest 1),
    .answer 0 (someRequest 0x01000001), .depart 5 .pollHup, .connect 5, .request 5 (someRequest 1)]

theorem answersRouted_answeredFirst :
    (∀ p ∈ EventRun.moves step (start sampleDevFd) answeredFirst, p.1.SlotQuiet p.2) ∧
      ∀ w ∈ EventRun.states step (start sampleDevFd) answeredFirst, AnswersRouted w := by
  have hquiet : ∀ p ∈ EventRun.moves step (start sampleDevFd) answeredFirst,
      p.1.SlotQuiet p.2 := by
    decide +kernel
  exact ⟨hquiet, (answersRouted_iff sampleDevFd answeredFirst (by decide +kernel)).2 hquiet⟩

/-- A client leaves before its answer has come, and the next client gets its slot. -/
def leftBeforeAnswer : List Event :=
  [.openDone 0 4, .connect 5, .request 5 (someRequest 1), .depart 5 .pollHup, .connect 5]

/-- The next client would get the answer. -/
theorem not_answersRouted : ¬ ∀ (devFd : {fd : ℤ // 0 < fd}) (evs : List Event),
    (∀ p ∈ EventRun.moves step (start devFd) evs, p.1.TransactionIdOk p.2) →
      ∀ w ∈ EventRun.states step (start devFd) evs, AnswersRouted w := by
  intro hall
  have hwrong : ∃ w ∈ EventRun.states step (start sampleDevFd) leftBeforeAnswer,
      w.running = true ∧ ∃ q ∈ w.inFlight, q.con = 0 ∧ ¬ w.sockets.Alive q.con ∧
        receivers w.sockets (handleDeviceResponse w.proxy.cmClients
          (someRequest q.devTransactionId)) = [(1, someRequest 1)] := by
    decide +kernel
  obtain ⟨w, hw, hrun, q, hq, -, hgone, hgot⟩ := hwrong
  have hrouted := hall _ leftBeforeAnswer (by decide +kernel) w hw hrun q hq
    (someRequest q.devTransactionId) rfl
  rw [if_neg hgone, hgot] at hrouted
  simp at hrouted

end World

end MbimProxy

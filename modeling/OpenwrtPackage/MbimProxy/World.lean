/-
**The MBIM proxy between its clients and the device.**

The proxy of `OpenwrtPackage.MbimProxy.Model` together with what it talks to: the descriptors of
its clients, and the requests the device has been sent and has not answered.  A run is one call of
`proxy_loop` and ends with it; a step is one entry of `pollfds`.

Main definitions:

* `MbimProxy.World`, `MbimProxy.World.start` — the proxy and its surroundings; at the start the
  device has been opened and `MBIM_OPEN_MSG` has been sent;
* `MbimProxy.Event`, `MbimProxy.World.step` — what can happen, and what it does;
* `MbimProxy.Departure` — the ways in which a client can go away;
* `MbimProxy.World.receivers` — the connections that get the writes of a handler.

Main results:

* `MbimProxy.World.step_cases` — everything a step can do;
* `MbimProxy.World.Served`, `MbimProxy.World.served_of_mem_states` — while the loop runs, slots and
  descriptors agree.
-/
import OpenwrtPackage.Lib.EventRun
import OpenwrtPackage.Lib.SocketTable
import OpenwrtPackage.MbimProxy.Model

set_option relaxedAutoImplicit false
set_option autoImplicit false

namespace MbimProxy

/-- The descriptors and the slots of the proxy. -/
structure Proxy where
  mbimDevFd : ℤ
  mbimServerFd : ℤ
  cmClients : CmClients

/-- A request the device has been sent: the connection it came from, the transaction id it had
there, and the one the device saw. -/
structure InFlight where
  con : ℕ
  transactionId : UInt32
  devTransactionId : UInt32
  deriving DecidableEq

/-- The proxy, the descriptors of its clients, and the requests without an answer.  `running` says
that `proxy_loop` has not returned. -/
structure World where
  proxy : Proxy
  running : Bool
  sockets : SocketTable
  inFlight : List InFlight

/-- How a client goes away: what `poll` reports for its descriptor, or what `read` returns. -/
inductive Departure where
  | pollErr
  | pollHup
  | pollNval
  /-- `read` returns 0 -/
  | readEof
  /-- `read` returns -1 -/
  | readError
  deriving DecidableEq

/-- The departure is reported by `poll`, in `revents & (POLLERR | POLLHUP | POLLNVAL)`. -/
def Departure.Polled : Departure → Prop
  | .pollErr | .pollHup | .pollNval => True
  | .readEof | .readError => False

instance : (how : Departure) → Decidable how.Polled
  | .pollErr | .pollHup | .pollNval => isTrue trivial
  | .readEof | .readError => isFalse id

/-- What can happen next to the loop. -/
inductive Event where
  /-- before the server socket is open, the device answers the open message; `serverFd` is what
  `proxy_make_server` returns -/
  | openDone (status : UInt32) (serverFd : ℤ)
  /-- a client connects; `accept` returns `clientFd` -/
  | connect (clientFd : ℤ)
  /-- a message from the client on `fd` -/
  | request (fd : ℤ) (m : Message)
  /-- the client on `fd` goes away -/
  | depart (fd : ℤ) (how : Departure)
  /-- the device answers the `i`-th of the requests in flight -/
  | answer (i : ℕ) (m : Message)
  /-- the device sends anything else -/
  | unsolicited (m : Message)
  /-- an error on the descriptor of the device, or of `poll` -/
  | deviceLost

namespace World

/-- The device has been opened and nothing has come from it. -/
def start (devFd : {fd : ℤ // 0 < fd}) : World where
  proxy := ⟨devFd, -1, fun _ => ⟨0, 0⟩⟩
  running := true
  sockets := SocketTable.empty
  inFlight := []

/-- The device in the runs that are written out. -/
def sampleDevFd : {fd : ℤ // 0 < fd} := ⟨3, Int.natCast_pos.2 (Nat.succ_pos 2)⟩

/-- The descriptors after a handler has closed some. -/
def applyCloses (t : SocketTable) (acts : List Action) : SocketTable :=
  acts.foldl (fun t act => match act with
    | .close fd => t.close fd
    | _ => t) t

/-- The connections that get the writes of a handler, with what they get.  A write to a descriptor
reaches the connection that has it. -/
def receivers (t : SocketTable) (acts : List Action) : List (ℕ × Message) :=
  acts.filterMap fun
    | .toClient fd m => (t.owner fd).map fun c => (c, m)
    | _ => none

/-- The requests a handler forwards to the device, for a message from the connection `con`. -/
def forwarded (con : ℕ) (transactionId : UInt32) (acts : List Action) : List InFlight :=
  acts.filterMap fun
    | .toDev m => some ⟨con, transactionId, m.transactionId⟩
    | _ => none

/-- `goto error`: everything is closed, and `main` closes the device. -/
def afterError (w : World) : World :=
  let closed := (List.finRange cmMaxClient).flatMap fun i =>
    (safeClose (w.proxy.cmClients i).clientFd).2
  { w with
    proxy :=
      { mbimDevFd := (safeClose w.proxy.mbimDevFd).1
        mbimServerFd := (safeClose w.proxy.mbimServerFd).1
        cmClients := fun i => { w.proxy.cmClients i with
          clientFd := (safeClose (w.proxy.cmClients i).clientFd).1 } }
    running := false
    sockets := applyCloses w.sockets closed }

def afterConnect (w : World) (clientFd : ℤ) (h : clientFd ∉ w.sockets.fds) : World :=
  let r := handleClientConnect w.proxy.cmClients clientFd
  { w with
    proxy := { w.proxy with cmClients := r.1 }
    sockets := applyCloses (w.sockets.accept clientFd h) r.2 }

def afterRequest (w : World) (fd : ℤ) (con : ℕ) (m : Message) : World :=
  { w with
    inFlight := w.inFlight ++
      forwarded con m.transactionId (handleClientRequest w.proxy.cmClients fd m) }

/-- The client on `fd` has gone.  A departure that `poll` reports is handled and the loop goes on;
one that `read` reports is handled and `proxy_loop` returns (`return len`), whereupon `main` closes
the device.  The server socket and the other clients are then left open, and nobody serves them. -/
def afterDepart (w : World) (fd : ℤ) (how : Departure) : World :=
  let r := handleClientDisconnect w.proxy.cmClients fd
  let w' := { w with
    proxy := { w.proxy with cmClients := r.1 }
    sockets := applyCloses w.sockets r.2 }
  if how.Polled then w'
  else
    { w' with
      running := false
      proxy := { w'.proxy with mbimDevFd := (safeClose w.proxy.mbimDevFd).1 } }

/-- One entry of `pollfds` in `proxy_loop`.  Clients are polled once the server socket is open, and
the device answers with the transaction id that it saw. -/
def step (w : World) (e : Event) : Option World :=
  if w.running then
    match e with
    | .openDone status serverFd =>
        if w.proxy.mbimServerFd = -1 then
          if status ≠ 0 then some w.afterError
          else if serverFd = -1 ∨ 0 < serverFd then
            some { w with proxy := { w.proxy with mbimServerFd := serverFd } }
          else none
        else none
    | .connect clientFd =>
        if h : clientFd ∉ w.sockets.fds then
          if 0 < clientFd ∧ 0 < w.proxy.mbimServerFd then some (w.afterConnect clientFd h)
          else none
        else none
    | .request fd m =>
        match w.sockets.owner fd with
        | none => none
        | some c => some (w.afterRequest fd c m)
    | .depart fd how => if fd ∈ w.sockets.fds then some (w.afterDepart fd how) else none
    | .answer i m =>
        match w.inFlight[i]? with
        | none => none
        | some q =>
            if m.transactionId = q.devTransactionId then
              some { w with inFlight := w.inFlight.eraseIdx i }
            else none
    | .unsolicited _ => some w
    | .deviceLost => some w.afterError
  else none

/-- **Everything a step can do.** -/
theorem step_cases {w w' : World} {e : Event} (h : w.step e = some w') :
    w.running = true ∧
      match e with
      | .openDone _ serverFd => w' = w.afterError ∨
          w' = { w with proxy := { w.proxy with mbimServerFd := serverFd } }
      | .connect clientFd => 0 < clientFd ∧ ∃ hfd, w' = w.afterConnect clientFd hfd
      | .request fd m => ∃ c, (fd, c) ∈ w.sockets.entries ∧ w' = w.afterRequest fd c m
      | .depart fd how => fd ∈ w.sockets.fds ∧ w' = w.afterDepart fd how
      | .answer i _ => w' = { w with inFlight := w.inFlight.eraseIdx i }
      | .unsolicited _ => w' = w
      | .deviceLost => w' = w.afterError := by
  unfold step at h
  split at h
  · rename_i hrun
    refine ⟨hrun, ?_⟩
    cases e with
    | openDone status serverFd =>
        simp only at h ⊢
        obtain ⟨-, h⟩ := Option.ite_none_right_eq_some.1 h
        split at h
        · exact .inl (Option.some.inj h).symm
        · obtain ⟨-, h⟩ := Option.ite_none_right_eq_some.1 h
          exact .inr (Option.some.inj h).symm
    | connect clientFd =>
        obtain ⟨hfd, h⟩ := Option.dite_none_right_eq_some.1 h
        obtain ⟨hpos, h⟩ := Option.ite_none_right_eq_some.1 h
        exact ⟨hpos.1, hfd, (Option.some.inj h).symm⟩
    | request fd m =>
        simp only at h ⊢
        split at h
        · simp at h
        · rename_i c hc
          exact ⟨c, SocketTable.owner_eq_some_iff.1 hc, (Option.some.inj h).symm⟩
    | depart fd how =>
        obtain ⟨hfd, h⟩ := Option.ite_none_right_eq_some.1 h
        exact ⟨hfd, (Option.some.inj h).symm⟩
    | answer i m =>
        simp only at h ⊢
        split at h
        · simp at h
        · obtain ⟨-, h⟩ := Option.ite_none_right_eq_some.1 h
          exact (Option.some.inj h).symm
    | unsolicited m => exact (Option.some.inj h).symm
    | deviceLost => exact (Option.some.inj h).symm
  · simp at h

end World

/-! ### The first slot that passes a test -/

theorem firstSlot_some {test : Fin cmMaxClient → Bool} {i : Fin cmMaxClient}
    (h : firstSlot test = some i) : test i = true := List.find?_some h

theorem firstSlot_none {test : Fin cmMaxClient → Bool} (h : firstSlot test = none)
    (i : Fin cmMaxClient) : test i = false := by
  have hall := List.find?_eq_none.1 h i (List.mem_finRange i)
  simpa using hall

/-- A test that one slot only passes finds that slot. -/
theorem firstSlot_eq_some {test : Fin cmMaxClient → Bool} {i : Fin cmMaxClient}
    (hi : test i = true) (huniq : ∀ j, test j = true → j = i) : firstSlot test = some i := by
  cases h : firstSlot test with
  | none => simp [firstSlot_none h i] at hi
  | some j => rw [huniq j (firstSlot_some h)]

namespace World

/-! ### What holds while the loop runs -/

/-- The slots and the descriptors of the clients agree. -/
structure Served (w : World) : Prop where
  devOpen : 0 < w.proxy.mbimDevFd
  /-- an occupied slot has its number -/
  slotIdx : ∀ i, 0 < (w.proxy.cmClients i).clientFd → (w.proxy.cmClients i).clientIdx = i + 1
  /-- no two slots have the same client -/
  slotUnique : ∀ i j, 0 < (w.proxy.cmClients i).clientFd →
    (w.proxy.cmClients i).clientFd = (w.proxy.cmClients j).clientFd → i = j
  /-- the occupied slots are those of the open descriptors -/
  linked : ∀ fd, fd ∈ w.sockets.fds ↔ 0 < fd ∧ ∃ i, (w.proxy.cmClients i).clientFd = fd

theorem served_start (devFd : {fd : ℤ // 0 < fd}) : (start devFd).Served where
  devOpen := devFd.2
  slotIdx := by simp [start]
  slotUnique := by simp [start]
  linked := by
    intro fd
    simp only [start, SocketTable.empty, SocketTable.fds, List.map_nil, List.not_mem_nil,
      false_iff, not_and]
    rintro hpos ⟨i, rfl⟩
    exact absurd hpos (by decide)

/-- A client's slot is the first with its descriptor: it is the only one. -/
theorem Served.firstSlot_clientFd {w : World} (hs : w.Served) {fd : ℤ} {i : Fin cmMaxClient}
    (hi : (w.proxy.cmClients i).clientFd = fd) (hpos : 0 < fd) :
    firstSlot (fun j => (w.proxy.cmClients j).clientFd = fd) = some i := by
  refine firstSlot_eq_some (by simpa using hi) fun j hj => ?_
  have hj : (w.proxy.cmClients j).clientFd = fd := by simpa using hj
  exact hs.slotUnique j i (hj ▸ hpos) (hj.trans hi.symm)

/-- The slot of a connected client, found by its descriptor. -/
theorem Served.slot_of_mem {w : World} (hs : w.Served) {fd : ℤ} (h : fd ∈ w.sockets.fds) :
    ∃ i, (w.proxy.cmClients i).clientFd = fd ∧ 0 < fd ∧
      firstSlot (fun j => (w.proxy.cmClients j).clientFd = fd) = some i := by
  obtain ⟨hpos, i, hi⟩ := (hs.linked fd).1 h
  exact ⟨i, hi, hpos, hs.firstSlot_clientFd hi hpos⟩

/-- What a new client gets: the first free slot, or its descriptor closed again. -/
theorem afterConnect_eq (w : World) (clientFd : ℤ) (h : clientFd ∉ w.sockets.fds) :
    w.afterConnect clientFd h =
      match firstSlot fun i => (w.proxy.cmClients i).clientFd ≤ 0 with
      | some i =>
          { w with
            proxy := { w.proxy with
              cmClients := Function.update w.proxy.cmClients i ⟨clientFd, i + 1⟩ }
            sockets := w.sockets.accept clientFd h }
      | none => { w with sockets := (w.sockets.accept clientFd h).close clientFd } := by
  simp only [afterConnect, handleClientConnect]
  cases firstSlot fun i => (w.proxy.cmClients i).clientFd ≤ 0 <;> rfl

/-- What becomes of the slots when a client goes: its own is freed. -/
theorem Served.handleClientDisconnect_eq {w : World} (hs : w.Served) {fd : ℤ}
    {i : Fin cmMaxClient} (hi : (w.proxy.cmClients i).clientFd = fd) (hpos : 0 < fd) :
    handleClientDisconnect w.proxy.cmClients fd =
      (Function.update w.proxy.cmClients i { w.proxy.cmClients i with clientFd := -1 },
        [.close fd]) := by
  simp only [handleClientDisconnect, hs.firstSlot_clientFd hi hpos, safeClose, hi, hpos, if_true]

/-- A new client that is given a free slot. -/
theorem served_granted {w : World} (hs : w.Served) {clientFd : ℤ} (hpos : 0 < clientFd)
    (h : clientFd ∉ w.sockets.fds) {i : Fin cmMaxClient}
    (hfree : (w.proxy.cmClients i).clientFd ≤ 0) :
    Served { w with
      proxy := { w.proxy with
        cmClients := Function.update w.proxy.cmClients i ⟨clientFd, i + 1⟩ }
      sockets := w.sockets.accept clientFd h } := by
  have hnew : ∀ j, (w.proxy.cmClients j).clientFd ≠ clientFd := fun j hj =>
    h ((hs.linked clientFd).2 ⟨hpos, j, hj⟩)
  constructor
  · exact hs.devOpen
  · intro j hj
    by_cases hji : j = i
    · subst hji
      simp
    · simp only [Function.update_of_ne hji] at hj ⊢
      exact hs.slotIdx j hj
  · -- the new descriptor is in no other slot
    intro j k hj hjk
    by_cases hji : j = i <;> by_cases hki : k = i
    · rw [hji, hki]
    · subst hji
      simp only [Function.update_self, Function.update_of_ne hki] at hjk
      exact absurd hjk.symm (hnew k)
    · subst hki
      simp only [Function.update_self, Function.update_of_ne hji] at hjk
      exact absurd hjk (hnew j)
    · simp only [Function.update_of_ne hji, Function.update_of_ne hki] at hj hjk
      exact hs.slotUnique j k hj hjk
  · intro fd
    simp only [SocketTable.fds_accept, List.mem_append, List.mem_singleton, hs.linked fd]
    constructor
    · rintro (⟨hfd, j, hj⟩ | rfl)
      · refine ⟨hfd, j, ?_⟩
        have hji : j ≠ i := by
          rintro rfl
          omega
        rwa [Function.update_of_ne hji]
      · exact ⟨hpos, i, by rw [Function.update_self]⟩
    · rintro ⟨hfd, j, hj⟩
      by_cases hji : j = i
      · subst hji
        rw [Function.update_self] at hj
        exact .inr hj.symm
      · rw [Function.update_of_ne hji] at hj
        exact .inl ⟨hfd, j, hj⟩

/-- A new client that is turned away: its descriptor is opened and closed again. -/
theorem served_refused {w : World} (hs : w.Served) {clientFd : ℤ} (hpos : 0 < clientFd)
    (h : clientFd ∉ w.sockets.fds) :
    Served { w with sockets := (w.sockets.accept clientFd h).close clientFd } := by
  refine ⟨hs.devOpen, hs.slotIdx, hs.slotUnique, fun fd => ?_⟩
  simp only [SocketTable.fds_close, SocketTable.fds_accept, List.mem_filter, List.mem_append,
    List.mem_singleton, decide_eq_true_eq, hs.linked fd]
  constructor
  · rintro ⟨hfd | hfd, hne⟩
    · exact hfd
    · exact absurd hfd hne
  · rintro ⟨hfd, j, hj⟩
    refine ⟨.inl ⟨hfd, j, hj⟩, fun heq => ?_⟩
    exact h ((hs.linked clientFd).2 ⟨hpos, j, hj.trans heq⟩)

theorem served_connect {w : World} (hs : w.Served) {clientFd : ℤ} (hpos : 0 < clientFd)
    (h : clientFd ∉ w.sockets.fds) : (w.afterConnect clientFd h).Served := by
  rw [afterConnect_eq]
  split
  · rename_i i hi
    exact served_granted hs hpos h (by simpa using firstSlot_some hi)
  · exact served_refused hs hpos h

theorem served_depart {w : World} (hs : w.Served) {fd : ℤ} (h : fd ∈ w.sockets.fds)
    {how : Departure} (hp : how.Polled) : (w.afterDepart fd how).Served := by
  obtain ⟨hpos, i, hi⟩ := (hs.linked fd).1 h
  simp only [afterDepart, hs.handleClientDisconnect_eq hi hpos, hp, if_true]
  have hold : ∀ j, 0 < (Function.update w.proxy.cmClients i
      { w.proxy.cmClients i with clientFd := -1 } j).clientFd → j ≠ i := by
    rintro j hj rfl
    rw [Function.update_self] at hj
    have hneg : (0 : ℤ) < -1 := hj
    omega
  constructor
  · exact hs.devOpen
  · intro j hj
    have hji := hold j hj
    simp only [Function.update_of_ne hji] at hj ⊢
    exact hs.slotIdx j hj
  · intro j k hj hjk
    have hji := hold j hj
    have hki := hold k (hjk ▸ hj)
    simp only [Function.update_of_ne hji, Function.update_of_ne hki] at hj hjk
    exact hs.slotUnique j k hj hjk
  · intro gd
    simp only [applyCloses, List.foldl_cons, List.foldl_nil, SocketTable.fds_close,
      List.mem_filter, decide_eq_true_eq, hs.linked gd]
    constructor
    · rintro ⟨⟨hgd, j, hj⟩, hne⟩
      have hji : j ≠ i := by
        rintro rfl
        exact hne (hj.symm.trans hi)
      exact ⟨hgd, j, by rwa [Function.update_of_ne hji]⟩
    · rintro ⟨hgd, j, hj⟩
      have hji := hold j (hj ▸ hgd)
      rw [Function.update_of_ne hji] at hj
      refine ⟨⟨hgd, j, hj⟩, ?_⟩
      rintro rfl
      exact hji (hs.slotUnique j i (hj ▸ hgd) (hj.trans hi.symm))

/-- **Every step keeps slots and descriptors in agreement, as long as the loop runs.** -/
theorem served_step {w w' : World} {e : Event} (hs : w.running = true → w.Served)
    (h : w.step e = some w') : w'.running = true → w'.Served := by
  obtain ⟨hrun, h⟩ := step_cases h
  have hs := hs hrun
  intro hrun'
  cases e with
  | openDone status serverFd =>
      rcases h with rfl | rfl
      · simp [afterError] at hrun'
      · exact ⟨hs.devOpen, hs.slotIdx, hs.slotUnique, hs.linked⟩
  | connect clientFd =>
      obtain ⟨hpos, hfd, rfl⟩ := h
      exact served_connect hs hpos hfd
  | request fd m =>
      obtain ⟨c, -, rfl⟩ := h
      exact ⟨hs.devOpen, hs.slotIdx, hs.slotUnique, hs.linked⟩
  | depart fd how =>
      obtain ⟨hfd, rfl⟩ := h
      by_cases hp : how.Polled
      · exact served_depart hs hfd hp
      · simp [afterDepart, hp] at hrun'
  | answer i m =>
      obtain rfl : w' = { w with inFlight := w.inFlight.eraseIdx i } := h
      exact ⟨hs.devOpen, hs.slotIdx, hs.slotUnique, hs.linked⟩
  | unsolicited m =>
      obtain rfl : w' = w := h
      exact hs
  | deviceLost =>
      obtain rfl : w' = w.afterError := h
      simp [afterError] at hrun'

/-- Slots and descriptors agree all along every run. -/
theorem served_of_mem_states {devFd : {fd : ℤ // 0 < fd}} {evs : List Event} {w : World}
    (hw : w ∈ EventRun.states step (start devFd) evs) (hrun : w.running = true) : w.Served :=
  EventRun.invariant (fun w => w.running = true → w.Served) (fun _ _ _ hi h => served_step hi h)
    (fun _ => served_start devFd) evs w hw hrun

end World

end MbimProxy

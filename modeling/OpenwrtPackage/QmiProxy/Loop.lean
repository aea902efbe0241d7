/-
**The loop of the QMI proxy and its reads.**

`qmi_proxy_loop` takes what one `read` returns for one message.  A client socket is a stream
(`SOCK_STREAM`), so a read can return any piece of what the client has written.  All reads go into
one static buffer: the length field of a piece that is too short to have one is left over from
earlier reads.

* `QmiProxy.Loop`, `QmiProxy.Poll`, `QmiProxy.Loop.turn` — the loop with its buffer, over the proxy
  and its surroundings of `OpenwrtPackage.QmiProxy.World`;
* `QmiProxy.Loop.receivedFrom`, `QmiProxy.Loop.handedFrom` — the pieces read from a connection, and
  the messages from it that were handed to `recv_qmi_from_client`;
* `QmiProxy.Loop.handedFrom_iff` — **the messages a client has written are handed over exactly when
  every read has returned one message**;
* `QmiProxy.Loop.not_handedFrom` — two messages that arrive together are both dropped;
* `QmiProxy.Loop.world_mem_states` — the loop takes the proxy only where the steps of
  `QmiProxy.World.step` take it.
-/
import OpenwrtPackage.QmiProxy.World

set_option relaxedAutoImplicit false
set_option autoImplicit false

namespace QmiProxy

open Qmi Bytes

/-- What `poll` reports for one entry of `pollfds`, with what the call that follows returns. -/
inductive Poll where
  /-- `POLLERR`, `POLLHUP` or `POLLNVAL` on `cdc_wdm_fd` -/
  | deviceError
  /-- the same on `qmi_proxy_server_fd` -/
  | serverError
  /-- the same on the socket of a client -/
  | clientError (fd : ℤ)
  /-- a client connects; `accept` returns `clientfd` -/
  | serverReady (clientfd : ℤ)
  /-- `read` on `cdc_wdm_fd` returns `chunk`; it is the answer to the unanswered request at
  `origin`, if it is an answer.  The empty list stands for `nreads <= 0`. -/
  | deviceReady (origin : Option ℕ) (chunk : List UInt8)
  /-- `read` on the socket of a client returns `chunk` -/
  | clientReady (fd : ℤ) (chunk : List UInt8)

/-- The loop: the proxy and its surroundings, the static buffer `qmi_buf`, and what has passed
through it.  `received` are the pieces read from client sockets and `handed` the messages handed to
`recv_qmi_from_client`, each with its connection. -/
structure Loop where
  world : World
  qmiBuf : List UInt8
  received : List (ℕ × List UInt8)
  handed : List (ℕ × List UInt8)

namespace Loop

/-- The server socket has been opened; the buffer holds what earlier reads have left in it. -/
def start (serverFd : {fd : ℤ // 0 < fd}) (qmiBuf : List UInt8) : Loop :=
  ⟨World.start serverFd, qmiBuf, [], []⟩

/-- The client branch of the loop, for the connection `c` on `fd`. -/
def clientTurn (l : Loop) (fd : ℤ) (c : ℕ) (chunk : List UInt8) : Loop :=
  if chunk = [] then { l with world := l.world.afterHangup fd }
  else
    let pQMI := readInto l.qmiBuf chunk
    let l' := { l with qmiBuf := pQMI, received := l.received ++ [(c, chunk)] }
    if chunk.length ≠ qmiSize pQMI then l'
    else
      { l' with
        world := l.world.afterRequest fd c pQMI
        handed := l.handed ++ [(c, pQMI.take chunk.length)] }

/-- The device branch of the loop, where `left` are the requests that remain unanswered. -/
def deviceTurn (l : Loop) (left : List Msg) (chunk : List UInt8) : Loop :=
  let pQMI := readInto l.qmiBuf chunk
  if chunk.length ≠ qmiSize pQMI then
    { l with qmiBuf := pQMI, world := { l.world with unanswered := left } }
  else { l with qmiBuf := pQMI, world := l.world.afterDev pQMI left }

/-- One entry of `pollfds` in `qmi_proxy_loop`; the loop ends with `none`. -/
def turn (l : Loop) (p : Poll) : Option Loop :=
  if l.world.proxy.modemResetFlag then none
  else
    match p with
    | .deviceError => none
    | .serverError => some l
    | .clientError fd =>
        if fd ∈ l.world.sockets.fds then some { l with world := l.world.afterHangup fd } else none
    | .serverReady clientfd =>
        if h : clientfd ∉ l.world.sockets.fds then
          if 0 ≤ clientfd then some { l with world := l.world.afterAccept clientfd h } else none
        else none
    | .deviceReady origin chunk =>
        if chunk = [] ∨ qmiBufSize < chunk.length then none
        else
          match origin with
          | some i =>
              if i < l.world.unanswered.length ∧ IsCtlRsp (readInto l.qmiBuf chunk) then
                some (l.deviceTurn (l.world.unanswered.eraseIdx i) chunk)
              else none
          | none =>
              if IsCtlRsp (readInto l.qmiBuf chunk) then none
              else some (l.deviceTurn l.world.unanswered chunk)
    | .clientReady fd chunk =>
        if qmiBufSize < chunk.length then none
        else
          match l.world.sockets.owner fd with
          | none => none
          | some c => some (l.clientTurn fd c chunk)

/-- **Everything a turn can do.** -/
theorem turn_cases {l l' : Loop} {p : Poll} (h : l.turn p = some l') :
    l.world.proxy.modemResetFlag = false ∧
      match p with
      | .deviceError => False
      | .serverError => l' = l
      | .clientError fd =>
          fd ∈ l.world.sockets.fds ∧ l' = { l with world := l.world.afterHangup fd }
      | .serverReady clientfd => 0 ≤ clientfd ∧ ∃ hfd, l' =
          { l with world := l.world.afterAccept clientfd hfd }
      | .deviceReady (some i) chunk => i < l.world.unanswered.length ∧
          IsCtlRsp (readInto l.qmiBuf chunk) ∧
          l' = l.deviceTurn (l.world.unanswered.eraseIdx i) chunk
      | .deviceReady none chunk => ¬ IsCtlRsp (readInto l.qmiBuf chunk) ∧
          l' = l.deviceTurn l.world.unanswered chunk
      | .clientReady fd chunk => ∃ c, l.world.sockets.owner fd = some c ∧
          l' = l.clientTurn fd c chunk := by
  unfold turn at h
  split at h
  · simp at h
  · rename_i hr
    refine ⟨by simpa using hr, ?_⟩
    cases p with
    | deviceError => simp at h
    | serverError => exact (Option.some.inj h).symm
    | clientError fd =>
        obtain ⟨hfd, h⟩ := Option.ite_none_right_eq_some.1 h
        exact ⟨hfd, (Option.some.inj h).symm⟩
    | serverReady clientfd =>
        obtain ⟨hfd, h⟩ := Option.dite_none_right_eq_some.1 h
        obtain ⟨hpos, h⟩ := Option.ite_none_right_eq_some.1 h
        exact ⟨hpos, hfd, (Option.some.inj h).symm⟩
    | deviceReady origin chunk =>
        obtain ⟨-, h⟩ := Option.ite_none_left_eq_some.1 h
        cases origin with
        | some i =>
            obtain ⟨hi, h⟩ := Option.ite_none_right_eq_some.1 h
            exact ⟨hi.1, hi.2, (Option.some.inj h).symm⟩
        | none =>
            obtain ⟨hrsp, h⟩ := Option.ite_none_left_eq_some.1 h
            exact ⟨hrsp, (Option.some.inj h).symm⟩
    | clientReady fd chunk =>
        simp only at h ⊢
        split at h
        · simp at h
        · split at h
          · simp at h
          · rename_i c hc
            exact ⟨c, hc, (Option.some.inj h).symm⟩

/-! ### What is read and what is handed over -/

/-- What a trace has of the connection `c`. -/
def ofConnection (trace : List (ℕ × List UInt8)) (c : ℕ) : List (List UInt8) :=
  (trace.filter fun r => r.1 = c).map Prod.snd

@[simp] theorem ofConnection_concat (trace : List (ℕ × List UInt8)) (c d : ℕ) (x : List UInt8) :
    ofConnection (trace ++ [(c, x)]) d = ofConnection trace d ++ if c = d then [x] else [] := by
  by_cases h : c = d <;> simp [ofConnection, h]

/-- The pieces read from the connection `c`, in order. -/
def receivedFrom (l : Loop) (c : ℕ) : List (List UInt8) := ofConnection l.received c

/-- The messages from the connection `c` that were handed to `recv_qmi_from_client`, in order. -/
def handedFrom (l : Loop) (c : ℕ) : List (List UInt8) := ofConnection l.handed c

/-- The length field of a piece that has one does not depend on what was in the buffer. -/
theorem qmiSize_readInto {buf chunk : List UInt8} (h : qcqmiHdrSize ≤ chunk.length) :
    qmiSize (readInto buf chunk) = qmiSize chunk := by
  have hfield : 1 + 1 < chunk.length := by
    simp only [qcqmiHdrSize] at h
    omega
  rw [qmiSize, qmiSize, qmiHdrLength, qmiHdrLength, le16At_readInto hfield]

/-- What is handed over of a connection, compared with what is read: some of the pieces, each as it
was read, and all of them if each is a message. -/
structure Picked (handed received : List (List UInt8)) : Prop where
  sublist : handed.Sublist received
  nonempty : ∀ chunk ∈ received, chunk ≠ []
  whole : (∀ chunk ∈ received, WellFormed chunk) → handed = received

theorem Picked.taken {handed received : List (List UInt8)} (h : Picked handed received)
    {chunk : List UInt8} (hne : chunk ≠ []) :
    Picked (handed ++ [chunk]) (received ++ [chunk]) where
  sublist := h.sublist.append_right [chunk]
  nonempty := by
    intro x hx
    rcases List.mem_append.1 hx with hx | hx
    · exact h.nonempty x hx
    · exact List.mem_singleton.1 hx ▸ hne
  whole := fun hall => by rw [h.whole fun x hx => hall x (List.mem_append_left _ hx)]

theorem Picked.dropped {handed received : List (List UInt8)} (h : Picked handed received)
    {chunk : List UInt8} (hne : chunk ≠ []) (hbad : ¬ WellFormed chunk) :
    Picked handed (received ++ [chunk]) where
  sublist := h.sublist.trans (List.sublist_append_left ..)
  nonempty := by
    intro x hx
    rcases List.mem_append.1 hx with hx | hx
    · exact h.nonempty x hx
    · exact List.mem_singleton.1 hx ▸ hne
  whole := fun hall =>
    absurd (hall chunk (List.mem_append_right _ (List.mem_singleton.2 rfl))) hbad

/-- The traces of all connections are related so. -/
def TraceInv (l : Loop) : Prop := ∀ c, Picked (l.handedFrom c) (l.receivedFrom c)

theorem traceInv_start (serverFd : {fd : ℤ // 0 < fd}) (buf : List UInt8) :
    TraceInv (start serverFd buf) := fun _ =>
  ⟨List.Sublist.refl [], by simp [start, receivedFrom, ofConnection], fun _ => rfl⟩

theorem traceInv_clientTurn {l : Loop} (h : TraceInv l) (fd : ℤ) (c : ℕ) (chunk : List UInt8) :
    TraceInv (l.clientTurn fd c chunk) := by
  intro d
  have hd := h d
  simp only [handedFrom, receivedFrom, clientTurn] at hd ⊢
  by_cases hnil : chunk = []
  · rw [if_pos hnil]
    exact hd
  rw [if_neg hnil]
  by_cases hsize : chunk.length = qmiSize (readInto l.qmiBuf chunk)
  · rw [if_neg (not_not.2 hsize)]
    simp only [ofConnection_concat, take_readInto]
    split
    · exact hd.taken hnil
    · simpa using hd
  · -- the piece is dropped, so it is no message
    have hbad : ¬ WellFormed chunk := fun hw =>
      hsize (hw.2.2.trans (qmiSize_readInto hw.1).symm)
    rw [if_pos hsize]
    simp only [ofConnection_concat]
    split
    · exact hd.dropped hnil hbad
    · simpa using hd

@[simp] theorem deviceTurn_received (l : Loop) (left : List Msg) (chunk : List UInt8) :
    (l.deviceTurn left chunk).received = l.received := by
  simp only [deviceTurn]
  split <;> rfl

@[simp] theorem deviceTurn_handed (l : Loop) (left : List Msg) (chunk : List UInt8) :
    (l.deviceTurn left chunk).handed = l.handed := by
  simp only [deviceTurn]
  split <;> rfl

theorem traceInv_turn {l l' : Loop} {p : Poll} (hi : TraceInv l) (h : l.turn p = some l') :
    TraceInv l' := by
  have hdevice : ∀ left chunk, TraceInv (l.deviceTurn left chunk) := by
    intro left chunk c
    rw [handedFrom, receivedFrom, deviceTurn_handed, deviceTurn_received]
    exact hi c
  obtain ⟨-, h⟩ := turn_cases h
  cases p with
  | deviceError => exact h.elim
  | serverError => exact h ▸ hi
  | clientError fd =>
      obtain ⟨-, rfl⟩ := h
      exact hi
  | serverReady clientfd =>
      obtain ⟨-, -, rfl⟩ := h
      exact hi
  | deviceReady origin chunk =>
      cases origin with
      | some i =>
          obtain ⟨-, -, rfl⟩ := h
          exact hdevice _ chunk
      | none =>
          obtain ⟨-, rfl⟩ := h
          exact hdevice _ chunk
  | clientReady fd chunk =>
      obtain ⟨c, -, rfl⟩ := h
      exact traceInv_clientTurn hi fd c chunk

/-- **Exactly the messages a client has written are handed to `recv_qmi_from_client` if and only if
every read on its socket has returned one of them**, whatever else the loop does in between. -/
theorem handedFrom_iff {serverFd : {fd : ℤ // 0 < fd}} {buf : List UInt8} {polls : List Poll}
    {l : Loop} (hl : l ∈ EventRun.states turn (start serverFd buf) polls) (c : ℕ)
    {msgs : List (List UInt8)} (hmsgs : ∀ m ∈ msgs, WellFormed m)
    (hstream : (l.receivedFrom c).flatten = msgs.flatten) :
    l.handedFrom c = msgs ↔ l.receivedFrom c = msgs := by
  have hpicked : Picked (l.handedFrom c) (l.receivedFrom c) :=
    EventRun.invariant TraceInv (fun _ _ _ hi h => traceInv_turn hi h)
      (traceInv_start serverFd buf) polls l hl c
  constructor
  · intro h
    -- a part of the pieces that is the whole stream is all of the pieces
    have hall : l.handedFrom c = l.receivedFrom c :=
      eq_of_sublist_of_flatten_eq hpicked.sublist hpicked.nonempty (h ▸ hstream.symm)
    exact hall ▸ h
  · intro h
    exact (hpicked.whole (h ▸ hmsgs)).trans h

/-- Two clients write at the same time, one read for each message. -/
def oneRead : List Poll :=
  [.serverReady 5, .serverReady 6, .clientReady 5 (getClientIdReq 1 1),
    .clientReady 6 (getClientIdReq 1 2), .clientReady 5 (getClientIdReq 2 1)]

theorem handedFrom_oneRead :
    ∃ l ∈ EventRun.states turn (start World.sampleServerFd []) oneRead,
      l.handedFrom 0 = [getClientIdReq 1 1, getClientIdReq 2 1] := by
  have hrec : ∃ l ∈ EventRun.states turn (start World.sampleServerFd []) oneRead,
      l.receivedFrom 0 = [getClientIdReq 1 1, getClientIdReq 2 1] := by
    decide +kernel
  obtain ⟨l, hl, hrec⟩ := hrec
  exact ⟨l, hl, (handedFrom_iff hl 0 (by decide) (congrArg List.flatten hrec)).2 hrec⟩

/-- A client writes two messages, and one read returns both. -/
def oneReadForTwo : List Poll :=
  [.serverReady 5, .clientReady 5 (getClientIdReq 1 1 ++ getClientIdReq 2 1)]

/-- Neither of the two is handed over. -/
theorem not_handedFrom : ¬ ∀ (serverFd : {fd : ℤ // 0 < fd}) (buf : List UInt8)
    (polls : List Poll), ∀ l ∈ EventRun.states turn (start serverFd buf) polls,
      ∀ (c : ℕ) (msgs : List (List UInt8)), (∀ m ∈ msgs, WellFormed m) →
        (l.receivedFrom c).flatten = msgs.flatten → l.handedFrom c = msgs := by
  intro hall
  have hdropped : ∃ l ∈ EventRun.states turn (start World.sampleServerFd []) oneReadForTwo,
      (l.receivedFrom 0).flatten = [getClientIdReq 1 1, getClientIdReq 2 1].flatten ∧
        l.handedFrom 0 = [] := by
    decide +kernel
  obtain ⟨l, hl, hstream, hnone⟩ := hdropped
  have heq := hall _ _ _ l hl 0 _ (by decide) hstream
  rw [hnone] at heq
  simp at heq

/-! ### The loop and the steps of the proxy -/

/-- The reads return whole headers, and from the device whole messages.  A `cdc-wdm` device keeps
message boundaries. -/
def WholeReads (l : Loop) : Poll → Prop
  | .clientReady _ chunk => chunk ≠ [] → qcqmiHdrSize ≤ chunk.length
  | .deviceReady _ chunk => chunk.length = qmiSize (readInto l.qmiBuf chunk)
  | _ => True

/-- A turn of the loop is a step of the proxy, or leaves it alone. -/
theorem step_of_turn {l l' : Loop} {p : Poll} (hp : l.WholeReads p) (h : l.turn p = some l') :
    l'.world = l.world ∨ ∃ e, l.world.step e = some l'.world := by
  obtain ⟨hrun, h⟩ := turn_cases h
  cases p with
  | deviceError => exact h.elim
  | serverError => exact .inl (h ▸ rfl)
  | clientError fd =>
      obtain ⟨hfd, rfl⟩ := h
      exact .inr ⟨.hangup fd, by simp [World.step, hrun, hfd]⟩
  | serverReady clientfd =>
      obtain ⟨hpos, hfd, rfl⟩ := h
      exact .inr ⟨.accept clientfd, by simp [World.step, hrun, hfd, hpos]⟩
  | deviceReady origin chunk =>
      have hsize : chunk.length = qmiSize (readInto l.qmiBuf chunk) := hp
      cases origin with
      | some i =>
          obtain ⟨hi, hrsp, rfl⟩ := h
          refine .inr ⟨.answer i (readInto l.qmiBuf chunk), ?_⟩
          simp [World.step, hrun, hi, hrsp, deviceTurn, ← hsize]
      | none =>
          obtain ⟨hrsp, rfl⟩ := h
          refine .inr ⟨.unsolicited (readInto l.qmiBuf chunk), ?_⟩
          simp [World.step, hrun, hrsp, deviceTurn, ← hsize]
  | clientReady fd chunk =>
      obtain ⟨c, hc, rfl⟩ := h
      have hfd : fd ∈ l.world.sockets.fds :=
        SocketTable.mem_fds_iff.2 ⟨c, SocketTable.owner_eq_some_iff.1 hc⟩
      by_cases hnil : chunk = []
      · exact .inr ⟨.hangup fd, by simp [World.step, hrun, hfd, clientTurn, hnil]⟩
      by_cases hsize : chunk.length = qmiSize (readInto l.qmiBuf chunk)
      · have hlen : qcqmiHdrSize ≤ chunk.length := hp hnil
        refine .inr ⟨.request fd (readInto l.qmiBuf chunk), ?_⟩
        simp [World.step, hrun, hc, hlen, clientTurn, hnil, ← hsize]
      · exact .inl (by simp [clientTurn, hnil, hsize])

/-- **The loop refines the steps of the proxy**: what it makes of the proxy is reached by a run of
`QmiProxy.World.step`. -/
theorem world_mem_states (serverFd : {fd : ℤ // 0 < fd}) (buf : List UInt8) (polls : List Poll)
    (hwhole : ∀ p ∈ EventRun.moves turn (start serverFd buf) polls, p.1.WholeReads p.2) :
    ∀ l ∈ EventRun.states turn (start serverFd buf) polls,
      ∃ evs, l.world ∈ EventRun.states World.step (World.start serverFd) evs :=
  EventRun.simulation world WholeReads (fun _ _ _ hp h => step_of_turn hp h) hwhole

end Loop

end QmiProxy

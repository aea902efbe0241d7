/-
**Who gets a line of the modem: quectel-atc-proxy.**

Clients send AT commands to the proxy, and the proxy hands every line of the modem to
`onUnsolicited`: to the client whose command is executing, or to all clients when there is none.
The client of a command is looked up by `pollfds[nevents].fd`, the entry behind the ones that were
filled in, instead of `pollfds[ne].fd`.

* `AtcProxy.onUnsolicited`, `AtcProxy.execute` — one line, and all lines of a command;
* `AtcProxy.Proxy`, `AtcProxy.Event`, `AtcProxy.step` — the loop of the proxy;
* `AtcProxy.Routed` — every line went where it belongs;
* `AtcProxy.Aimed` — what that takes of a step;
* `AtcProxy.routed_iff` — **a run routes its lines exactly when all its commands are aimed**.
-/
import Mathlib.Data.Int.Notation
import Mathlib.Data.List.Nodup
import OpenwrtPackage.Lib.EventRun

set_option relaxedAutoImplicit false
set_option autoImplicit false

namespace AtcProxy

/-! ### Lines and connections -/

/-- `ATC_PROXY_CONNECTION`, with a number that no other connection ever has. -/
structure Connection where
  id : ℕ
  clientFd : ℤ
  deriving DecidableEq, Repr

/-- A line of the modem, with the second line of a message, as it arrives: the connections of
`failing` can no longer be written to. -/
structure Line where
  s : List Char
  smsPdu : Option (List Char)
  failing : List ℕ

/-- What `onUnsolicited` puts into `buf`. -/
def Line.buf (l : Line) : List Char :=
  l.s ++ ['\r', '\n'] ++ match l.smsPdu with
    | none => []
    | some pdu => pdu ++ ['\r', '\n']

/-- `buf` holds the line and its NUL. -/
def Line.Fits (l : Line) : Prop := l.buf.length < 1024

instance (l : Line) : Decidable l.Fits := inferInstanceAs (Decidable (_ < _))

/-- `current_client_fd`: `NULL`, a connection, or a connection that is freed already. -/
inductive Current where
  | null
  | connection (c : Connection)
  | freed
  deriving DecidableEq

/-- What a call of `onUnsolicited` does: whom it writes to, and what it leaves. -/
structure Handled where
  sentTo : List Connection
  current : Current
  connections : List Connection

/-- Is the connection open for lines that go to everybody? -/
def Connection.isOpen (c : Connection) : Bool := 0 < c.clientFd

/-- `onUnsolicited`, or `none` where its behaviour is undefined: a line that does not fit into
`buf`, and a connection that is used after it was freed. -/
def onUnsolicited (current : Current) (connections : List Connection) (l : Line) :
    Option Handled :=
  if l.Fits then
    match current with
    | .connection c =>
        if c.id ∈ l.failing then some ⟨[c], .freed, connections.filter fun d => d.id ≠ c.id⟩
        else some ⟨[c], .connection c, connections⟩
    | .freed => none
    | .null =>
        some ⟨connections.filter Connection.isOpen, .null,
          connections.filter fun d => ¬ (d.isOpen = true ∧ d.id ∈ l.failing)⟩
  else none

/-- A line, whom it is for, and whom it was written to. -/
structure Delivery where
  due : List Connection
  sentTo : Option (List Connection)
  deriving DecidableEq

/-- The line went where it belongs. -/
def Delivery.Right (d : Delivery) : Prop := d.sentTo = some d.due

instance (d : Delivery) : Decidable d.Right := inferInstanceAs (Decidable (_ = _))

/-- The lines that arrive while the command of `client` executes, and the connections behind
them; `none` when the behaviour was undefined.  The lines are for that client, as long as it is
connected. -/
def execute (client : Connection) :
    Current → List Connection → List Line → List Delivery × Option (List Connection)
  | _, connections, [] => ([], some connections)
  | current, connections, l :: ls =>
      let due := connections.filter fun d => d.id = client.id
      match onUnsolicited current connections l with
      | none => ([⟨due, none⟩], none)
      | some h =>
          let rest := execute client h.current h.connections ls
          (⟨due, some h.sentTo⟩ :: rest.1, rest.2)

/-! ### The loop -/

/-- The proxy: its descriptors and connections, the array of `poll` with what stands behind its
entries in memory, the entry that the loop is at, and what became of the lines so far. -/
structure Proxy where
  devFd : ℤ
  serverFd : ℤ
  connections : List Connection
  nextId : ℕ
  pollfds : ℕ → ℤ
  nevents : ℕ
  ne : ℕ
  running : Bool
  log : List Delivery

/-- The proxy as `atc_proxy_loop` starts; the server is opened later. -/
def Proxy.start (devFd : ℤ) (pollfds : ℕ → ℤ) : Proxy where
  devFd := devFd
  serverFd := -1
  connections := []
  nextId := 0
  pollfds := pollfds
  nevents := 0
  ne := 0
  running := true
  log := []

/-- What happens next. -/
inductive Event where
  /-- `atc_start_server` has opened the server -/
  | serverStarted (fd : ℤ)
  /-- the array is filled and `poll` returns; `stale` is the memory that is not filled -/
  | poll (stale : ℕ → ℤ)
  /-- there is nothing to do for the entry -/
  | quiet
  /-- the entry is a client that hung up -/
  | hangup
  /-- the entry is the server, and `accept` returns `fd` -/
  | accept (fd : ℤ)
  /-- the entry is a client that cannot be read -/
  | readFailed
  /-- the entry is a client that sends a command, and these lines arrive while it executes -/
  | command (lines : List Line)
  /-- a line arrives while no command executes -/
  | line (l : Line)
  /-- the loop ends and all connections are cleaned up -/
  | exit

/-- The entries that the loop fills in: at most `2+64`. -/
def Proxy.entries (p : Proxy) : List ℤ :=
  ([p.devFd] ++ (if 0 < p.serverFd then [p.serverFd] else []) ++
    p.connections.map Connection.clientFd).take 66

/-- `pollfds[ne].fd`, when the loop is at an entry. -/
def Proxy.entry (p : Proxy) : Option ℤ := if p.ne < p.nevents then some (p.pollfds p.ne) else none

/-- `pollfds[ne].fd`, when it is a client; `poll` says nothing about a negative descriptor. -/
def Proxy.clientEntry (p : Proxy) : Option ℤ :=
  p.entry.filter fun fd => 0 ≤ fd ∧ fd ≠ p.devFd ∧ fd ≠ p.serverFd

/-- `cleanup_atc_connection` -/
def cleanup (connections : List Connection) (fd : ℤ) : List Connection :=
  connections.eraseP fun c => c.clientFd = fd

/-- A descriptor that is not in use. -/
def Proxy.isFree (p : Proxy) (fd : ℤ) : Bool :=
  0 < fd ∧ fd ≠ p.devFd ∧ fd ≠ p.serverFd ∧ ∀ c ∈ p.connections, c.clientFd ≠ fd

/-- `current_client_fd` as the loop sets it: the connection with `pollfds[nevents].fd`. -/
def Proxy.lookup (p : Proxy) : Current :=
  match p.connections.find? fun c => c.clientFd = p.pollfds p.nevents with
  | none => .null
  | some c => .connection c

/-- The client that the entry belongs to. -/
def Proxy.client (p : Proxy) : Option Connection :=
  p.clientEntry.bind fun fd => p.connections.find? fun c => c.clientFd = fd

/-- Every line that arrives is written down; undefined behaviour ends the run. -/
def Proxy.record (p : Proxy) (r : List Delivery × Option (List Connection)) : Proxy :=
  { p with
    connections := r.2.getD p.connections
    running := r.2.isSome
    log := p.log ++ r.1 }

/-- One step of the loop, or one line in between. -/
def step (p : Proxy) (e : Event) : Option Proxy :=
  if p.running then
    match e with
    | .serverStarted fd =>
        if p.serverFd = -1 ∧ p.isFree fd = true then some { p with serverFd := fd } else none
    | .poll stale =>
        if p.ne < p.nevents then none
        else some { p with
          pollfds := fun i => (p.entries[i]?).getD (stale i)
          nevents := p.entries.length
          ne := 0 }
    | .quiet => p.entry.map fun _ => { p with ne := p.ne + 1 }
    | .hangup =>
        p.clientEntry.map fun fd =>
          { p with connections := cleanup p.connections fd, ne := p.ne + 1 }
    | .accept fd =>
        if p.entry = some p.serverFd ∧ (fd = -1 ∨ p.isFree fd = true) then
          some { p with
            connections := p.connections ++ [⟨p.nextId, fd⟩]
            nextId := p.nextId + 1
            ne := p.ne + 1 }
        else none
    | .readFailed =>
        p.clientEntry.map fun fd =>
          { p with connections := cleanup p.connections fd, ne := p.nevents }
    | .command lines =>
        p.client.map fun c =>
          { p.record (execute c p.lookup p.connections lines) with ne := p.ne + 1 }
    | .line l =>
        let due := p.connections.filter Connection.isOpen
        match onUnsolicited .null p.connections l with
        | none => some (p.record ([⟨due, none⟩], none))
        | some h => some (p.record ([⟨due, some h.sentTo⟩], some h.connections))
    | .exit => some { p with connections := [], running := false }
  else none

/-! ### The law -/

/-- All lines so far went where they belong: to the client whose command was executing, or to
every client. -/
def Routed (p : Proxy) : Prop := ∀ d ∈ p.log, d.Right

/-- What a command takes: its lines fit into `buf`, and the entry behind the ones filled in names
its client, whose connection does not fail before the last line; or that entry names no client,
and there is no other client. -/
def CommandAimed (p : Proxy) (c : Connection) (lines : List Line) : Prop :=
  lines = [] ∨ (∀ l ∈ lines, l.Fits) ∧
    (p.pollfds p.nevents = c.clientFd ∧ (∀ l ∈ lines.dropLast, c.id ∉ l.failing) ∨
      (∀ d ∈ p.connections, d.clientFd ≠ p.pollfds p.nevents) ∧
        ∀ d ∈ p.connections, 0 < d.clientFd → d = c)

/-- What a step takes. -/
def Aimed (p : Proxy) : Event → Prop
  | .command lines => ∀ c ∈ p.client, CommandAimed p c lines
  | .line l => l.Fits
  | _ => True

/-- The connections have different numbers, and different descriptors but for those that `accept`
never gave one. -/
structure Proxy.Inv (p : Proxy) : Prop where
  ids : (p.connections.map Connection.id).Nodup
  ids_lt : ∀ c ∈ p.connections, c.id < p.nextId
  fds : ∀ c ∈ p.connections, ∀ d ∈ p.connections, 0 < c.clientFd → c.clientFd = d.clientFd → c = d
  open_or : ∀ c ∈ p.connections, c.clientFd = -1 ∨ 0 < c.clientFd
  routed : Routed p

/-! ### The lines of a command -/

theorem onUnsolicited_of_not_fits {l : Line} (h : ¬ l.Fits) (current : Current)
    (connections : List Connection) : onUnsolicited current connections l = none :=
  if_neg h

theorem onUnsolicited_connection {l : Line} (h : l.Fits) (c : Connection)
    (connections : List Connection) :
    onUnsolicited (.connection c) connections l =
      if c.id ∈ l.failing then some ⟨[c], .freed, connections.filter fun d => d.id ≠ c.id⟩
      else some ⟨[c], .connection c, connections⟩ := by
  rw [onUnsolicited, if_pos h]

theorem onUnsolicited_null {l : Line} (h : l.Fits) (connections : List Connection) :
    onUnsolicited .null connections l =
      some ⟨connections.filter Connection.isOpen, .null,
        connections.filter fun d => ¬ (d.isOpen = true ∧ d.id ∈ l.failing)⟩ := by
  rw [onUnsolicited, if_pos h]

theorem onUnsolicited_freed (connections : List Connection) (l : Line) :
    onUnsolicited .freed connections l = none := by
  by_cases h : l.Fits
  · exact if_pos h
  · exact if_neg h

theorem execute_cons_none {client : Connection} {current : Current}
    {connections : List Connection} {l : Line} (h : onUnsolicited current connections l = none)
    (ls : List Line) :
    execute client current connections (l :: ls) =
      ([⟨connections.filter fun d => d.id = client.id, none⟩], none) := by
  rw [execute]
  simp only [h]

theorem execute_cons_some {client : Connection} {current : Current}
    {connections : List Connection} {l : Line} {h : Handled}
    (hl : onUnsolicited current connections l = some h) (ls : List Line) :
    execute client current connections (l :: ls) =
      (⟨connections.filter fun d => d.id = client.id, some h.sentTo⟩ ::
        (execute client h.current h.connections ls).1,
        (execute client h.current h.connections ls).2) := by
  rw [execute]
  simp only [hl]

/-- The deliveries of some lines are right. -/
def AllRight (r : List Delivery × Option (List Connection)) : Prop := ∀ d ∈ r.1, d.Right

theorem not_allRight_of_none {client : Connection} {current : Current}
    {connections : List Connection} {l : Line} (h : onUnsolicited current connections l = none)
    (ls : List Line) : ¬ AllRight (execute client current connections (l :: ls)) := by
  rw [execute_cons_none h]
  intro hall
  have := hall _ (List.mem_singleton_self _)
  cases this

theorem allRight_cons_iff {client : Connection} {current : Current}
    {connections : List Connection} {l : Line} {h : Handled}
    (hl : onUnsolicited current connections l = some h) (ls : List Line) :
    AllRight (execute client current connections (l :: ls)) ↔
      h.sentTo = connections.filter (fun d => d.id = client.id) ∧
        AllRight (execute client h.current h.connections ls) := by
  rw [execute_cons_some hl]
  constructor
  · intro hall
    exact ⟨Option.some.inj (hall _ (List.mem_cons_self ..)),
      fun d hd => hall d (List.mem_cons_of_mem _ hd)⟩
  · rintro ⟨hsent, hall⟩ d hd
    obtain rfl | hd := List.mem_cons.1 hd
    · exact congrArg some hsent
    · exact hall d hd

/-- The only connection with the number of a client is the client. -/
theorem filter_id_eq {connections : List Connection} {c : Connection}
    (hids : (connections.map Connection.id).Nodup) (hc : c ∈ connections) :
    connections.filter (fun d => d.id = c.id) = [c] := by
  induction connections with
  | nil => cases hc
  | cons d ds ih =>
      rw [List.map_cons, List.nodup_cons] at hids
      obtain rfl | hc := List.mem_cons.1 hc
      · have hrest : ds.filter (fun d => d.id = c.id) = [] := by
          rw [List.filter_eq_nil_iff]
          intro e he
          have hne : e.id ≠ c.id := fun h => hids.1 (h ▸ List.mem_map_of_mem he)
          simpa using hne
        rw [List.filter_cons_of_pos (by simp), hrest]
      · have hne : d.id ≠ c.id := fun h => hids.1 (h ▸ List.mem_map_of_mem hc)
        rw [List.filter_cons_of_neg (by simpa using hne), ih hids.2 hc]

/-- Once its connection is freed, a client can get no further line. -/
theorem execute_freed_iff (client : Connection) (connections : List Connection)
    (ls : List Line) : AllRight (execute client .freed connections ls) ↔ ls = [] := by
  cases ls with
  | nil => exact iff_of_true (fun d hd => by cases hd) rfl
  | cons l ls =>
      exact iff_of_false (not_allRight_of_none (onUnsolicited_freed _ _) _) (by simp)

/-- All but the last: the first one is among them when it has a successor. -/
theorem forall_mem_dropLast_cons {α : Type} {P : α → Prop} (x : α) (xs : List α) :
    (∀ y ∈ (x :: xs).dropLast, P y) ↔ (xs ≠ [] → P x) ∧ ∀ y ∈ xs.dropLast, P y := by
  cases xs with
  | nil => simp
  | cons x' xs =>
      rw [List.dropLast_cons_cons, List.forall_mem_cons]
      simp

/-- With the client looked up, its lines go to it, and to nobody else. -/
theorem execute_connection_iff {c : Connection} {connections : List Connection}
    (hids : (connections.map Connection.id).Nodup) (hc : c ∈ connections) (ls : List Line) :
    AllRight (execute c (.connection c) connections ls) ↔
      (∀ l ∈ ls, l.Fits) ∧ ∀ l ∈ ls.dropLast, c.id ∉ l.failing := by
  induction ls with
  | nil =>
      refine iff_of_true (fun d hd => by cases hd) ⟨?_, ?_⟩
      · intro l hl; cases hl
      · intro l hl; cases hl
  | cons l ls ih =>
      rw [forall_mem_dropLast_cons, List.forall_mem_cons]
      by_cases hfits : l.Fits
      · have hdue : [c] = connections.filter (fun d => d.id = c.id) :=
          (filter_id_eq hids hc).symm
        have hhandled := onUnsolicited_connection hfits c connections
        by_cases hfail : c.id ∈ l.failing
        · -- the write fails, so no line may follow
          rw [if_pos hfail] at hhandled
          rw [allRight_cons_iff hhandled, execute_freed_iff]
          constructor
          · rintro ⟨-, rfl⟩
            exact ⟨⟨hfits, by simp⟩, fun h => absurd rfl h, by simp⟩
          · rintro ⟨-, hfirst, -⟩
            exact ⟨hdue, Classical.not_not.1 fun hne => hfirst hne hfail⟩
        · rw [if_neg hfail] at hhandled
          rw [allRight_cons_iff hhandled, ih]
          constructor
          · rintro ⟨-, hall, hrest⟩
            exact ⟨⟨hfits, hall⟩, fun _ => hfail, hrest⟩
          · rintro ⟨⟨-, hall⟩, -, hrest⟩
            exact ⟨hdue, hall, hrest⟩
      · refine iff_of_false (not_allRight_of_none (onUnsolicited_of_not_fits hfits _ _) _) ?_
        rintro ⟨⟨hfirst, -⟩, -⟩
        exact hfits hfirst

/-- With nobody looked up, lines for everybody are lines for the client when there is no other. -/
theorem execute_null_iff {c : Connection} {connections : List Connection}
    (hopen : ∀ d ∈ connections, d.isOpen = true ↔ d.id = c.id) (ls : List Line) :
    AllRight (execute c .null connections ls) ↔ ∀ l ∈ ls, l.Fits := by
  induction ls generalizing connections with
  | nil =>
      refine iff_of_true (fun d hd => by cases hd) ?_
      intro l hl; cases hl
  | cons l ls ih =>
      by_cases hfits : l.Fits
      · have hdue : connections.filter Connection.isOpen =
            connections.filter (fun d => d.id = c.id) := by
          refine List.filter_congr fun d hd => ?_
          rw [Bool.eq_iff_iff, decide_eq_true_iff]
          exact hopen d hd
        rw [allRight_cons_iff (onUnsolicited_null hfits connections),
          ih fun d hd => hopen d (List.mem_of_mem_filter hd), List.forall_mem_cons]
        exact ⟨fun h => ⟨hfits, h.2⟩, fun h => ⟨hdue, h.2⟩⟩
      · refine iff_of_false (not_allRight_of_none (onUnsolicited_of_not_fits hfits _ _) _) ?_
        intro hall
        exact hfits (hall l (List.mem_cons_self ..))

/-- With nobody looked up, another client gets the first line too. -/
theorem execute_null_other {c d : Connection} {connections : List Connection}
    (hd : d ∈ connections) (hopen : 0 < d.clientFd) (hne : d.id ≠ c.id) (l : Line)
    (ls : List Line) : ¬ AllRight (execute c .null connections (l :: ls)) := by
  by_cases hfits : l.Fits
  · rw [allRight_cons_iff (onUnsolicited_null hfits connections)]
    rintro ⟨hsent, -⟩
    have hmem : d ∈ connections.filter Connection.isOpen :=
      List.mem_filter.2 ⟨hd, by simpa [Connection.isOpen] using hopen⟩
    have hdue : d ∈ connections.filter (fun e => e.id = c.id) := hsent ▸ hmem
    exact hne (by simpa using (List.mem_filter.1 hdue).2)
  · exact not_allRight_of_none (onUnsolicited_of_not_fits hfits _ _) _

/-- With another client looked up, that one gets the first line. -/
theorem execute_connection_other {c d : Connection} {connections : List Connection}
    (hne : d.id ≠ c.id) (l : Line) (ls : List Line) :
    ¬ AllRight (execute c (.connection d) connections (l :: ls)) := by
  by_cases hfits : l.Fits
  · have hother : ∀ h : Handled, onUnsolicited (.connection d) connections l = some h →
        h.sentTo = [d] := by
      intro h hh
      rw [onUnsolicited_connection hfits] at hh
      split at hh <;> cases hh <;> rfl
    cases hh : onUnsolicited (.connection d) connections l with
    | none => exact not_allRight_of_none hh _
    | some h =>
        rw [allRight_cons_iff hh, hother h hh]
        rintro ⟨hsent, -⟩
        have hmem : d ∈ connections.filter (fun e => e.id = c.id) := by
          rw [← hsent]
          exact List.mem_singleton_self _
        exact hne (by simpa using (List.mem_filter.1 hmem).2)
  · exact not_allRight_of_none (onUnsolicited_of_not_fits hfits _ _) _

/-- Lines only ever take connections away. -/
theorem onUnsolicited_sublist {current : Current} {connections : List Connection} {l : Line}
    {h : Handled} (hh : onUnsolicited current connections l = some h) :
    h.connections.Sublist connections := by
  by_cases hfits : l.Fits
  · cases current with
    | null =>
        rw [onUnsolicited_null hfits] at hh
        cases hh
        exact List.filter_sublist ..
    | freed =>
        rw [onUnsolicited_freed] at hh
        cases hh
    | connection c =>
        rw [onUnsolicited_connection hfits] at hh
        split at hh
        · cases hh
          exact List.filter_sublist ..
        · cases hh
          exact List.Sublist.refl _
  · rw [onUnsolicited_of_not_fits hfits] at hh
    cases hh

theorem execute_sublist {client : Connection} {ls : List Line} :
    ∀ {current : Current} {connections left : List Connection},
      (execute client current connections ls).2 = some left → left.Sublist connections := by
  induction ls with
  | nil =>
      intro current connections left h
      cases h
      exact List.Sublist.refl _
  | cons l ls ih =>
      intro current connections left h
      cases hh : onUnsolicited current connections l with
      | none =>
          rw [execute_cons_none hh] at h
          cases h
      | some handled =>
          rw [execute_cons_some hh] at h
          exact (ih h).trans (onUnsolicited_sublist hh)

/-! ### Steps -/

theorem clientEntry_nonneg {p : Proxy} {fd : ℤ} (h : p.clientEntry = some fd) : 0 ≤ fd := by
  have := (Option.filter_eq_some_iff.1 h).2
  exact (of_decide_eq_true this).1

/-- The client of a command is connected. -/
theorem Proxy.Inv.client_mem {p : Proxy} (hp : p.Inv) {c : Connection} (h : p.client = some c) :
    c ∈ p.connections ∧ 0 < c.clientFd := by
  obtain ⟨fd, hfd, hfind⟩ := Option.bind_eq_some_iff.1 h
  have hmem := List.mem_of_find?_eq_some hfind
  have heq : c.clientFd = fd := by simpa using List.find?_some hfind
  have hpos := clientEntry_nonneg hfd
  obtain hnone | hopen := hp.open_or c hmem
  · omega
  · exact ⟨hmem, hopen⟩

/-- Every line of a command goes where it belongs exactly when the command is aimed. -/
theorem command_right_iff {p : Proxy} (hp : p.Inv) {c : Connection} (hc : p.client = some c)
    (lines : List Line) :
    AllRight (execute c p.lookup p.connections lines) ↔ CommandAimed p c lines := by
  obtain ⟨hmem, hopen⟩ := hp.client_mem hc
  have hunique : ∀ d ∈ p.connections, d.id = c.id → d = c := fun d hd h =>
    List.inj_on_of_nodup_map hp.ids hd hmem h
  cases lines with
  | nil => exact iff_of_true (fun d hd => by cases hd) (Or.inl rfl)
  | cons l ls =>
      have hne : l :: ls ≠ [] := List.cons_ne_nil l ls
      -- `lookup` goes by the entry behind the last one of the poll: it finds nobody, the client
      -- itself, or another client that then gets the answer.
      cases hfind : p.connections.find? fun d => d.clientFd = p.pollfds p.nevents with
      | none =>
          have hlookup : p.lookup = .null := by rw [Proxy.lookup, hfind]
          have hnobody : ∀ d ∈ p.connections, d.clientFd ≠ p.pollfds p.nevents := by
            intro d hd
            simpa using List.find?_eq_none.1 hfind d hd
          rw [hlookup]
          by_cases honly : ∀ d ∈ p.connections, 0 < d.clientFd → d = c
          · have hiff : ∀ d ∈ p.connections, d.isOpen = true ↔ d.id = c.id := by
              intro d hd
              rw [Connection.isOpen, decide_eq_true_iff]
              exact ⟨fun h => congrArg _ (honly d hd h), fun h => hunique d hd h ▸ hopen⟩
            rw [execute_null_iff hiff]
            exact ⟨fun hall => Or.inr ⟨hall, Or.inr ⟨hnobody, honly⟩⟩,
              fun h => (h.resolve_left hne).1⟩
          · obtain ⟨d, hd⟩ := not_forall.1 honly
            obtain ⟨hd, hopenne⟩ := Classical.not_imp.1 hd
            obtain ⟨hdopen, hdne⟩ := Classical.not_imp.1 hopenne
            refine iff_of_false (execute_null_other hd hdopen
              (fun h => hdne (hunique d hd h)) l ls) ?_
            rintro (h | ⟨-, ⟨hfd, -⟩ | ⟨-, honly'⟩⟩)
            · exact hne h
            · exact hnobody c hmem hfd.symm
            · exact honly honly'
      | some d =>
          have hlookup : p.lookup = .connection d := by rw [Proxy.lookup, hfind]
          have hd := List.mem_of_find?_eq_some hfind
          have hdfd : d.clientFd = p.pollfds p.nevents := by simpa using List.find?_some hfind
          rw [hlookup]
          by_cases hdc : d = c
          · subst hdc
            rw [execute_connection_iff hp.ids hd]
            constructor
            · rintro ⟨hfits, hfail⟩
              exact Or.inr ⟨hfits, Or.inl ⟨hdfd.symm, hfail⟩⟩
            · rintro (h | ⟨hfits, ⟨-, hfail⟩ | ⟨hnobody, -⟩⟩)
              · exact absurd h hne
              · exact ⟨hfits, hfail⟩
              · exact absurd hdfd (hnobody d hd)
          · refine iff_of_false
              (execute_connection_other (fun h => hdc (hunique d hd h)) l ls) ?_
            rintro (h | ⟨-, ⟨hfd, -⟩ | ⟨hnobody, -⟩⟩)
            · exact hne h
            · exact hdc (hp.fds c hmem d hd hopen (hdfd.trans hfd).symm).symm
            · exact hnobody d hd hdfd

/-- Fewer connections keep the invariant. -/
theorem Proxy.Inv.of_sublist {p q : Proxy} (hp : p.Inv) (hsub : q.connections.Sublist p.connections)
    (hnext : q.nextId = p.nextId) (hlog : Routed q) : q.Inv where
  ids := hp.ids.sublist (hsub.map _)
  ids_lt := fun c hc => hnext ▸ hp.ids_lt c (hsub.subset hc)
  fds := fun c hc d hd => hp.fds c (hsub.subset hc) d (hsub.subset hd)
  open_or := fun c hc => hp.open_or c (hsub.subset hc)
  routed := hlog

theorem cleanup_sublist (connections : List Connection) (fd : ℤ) :
    (cleanup connections fd).Sublist connections := List.eraseP_sublist

theorem routed_record {p : Proxy} (hp : Routed p) {r : List Delivery × Option (List Connection)}
    (hr : AllRight r) : Routed (p.record r) := by
  intro d hd
  obtain hd | hd := List.mem_append.1 hd
  · exact hp d hd
  · exact hr d hd

/-- A new connection keeps the invariant. -/
theorem Proxy.Inv.accept {p : Proxy} (hp : p.Inv) {fd : ℤ} (hfd : fd = -1 ∨ p.isFree fd = true)
    {ne : ℕ} : Proxy.Inv { p with
      connections := p.connections ++ [⟨p.nextId, fd⟩], nextId := p.nextId + 1, ne := ne } := by
  have hfree : p.isFree fd = true → 0 < fd ∧ ∀ c ∈ p.connections, c.clientFd ≠ fd := by
    intro h
    obtain ⟨hpos, -, -, hnew⟩ := of_decide_eq_true h
    exact ⟨hpos, hnew⟩
  refine ⟨?_, ?_, ?_, ?_, hp.routed⟩
  · rw [List.map_append, List.nodup_append]
    refine ⟨hp.ids, List.nodup_singleton _, ?_⟩
    intro a ha b hb hab
    obtain ⟨c, hc, rfl⟩ := List.mem_map.1 ha
    rw [List.map_singleton, List.mem_singleton] at hb
    exact Nat.ne_of_lt (hp.ids_lt c hc) (hab.trans hb)
  · intro c hc
    obtain hc | hc := List.mem_append.1 hc
    · exact Nat.lt_succ_of_lt (hp.ids_lt c hc)
    · rw [List.mem_singleton.1 hc]
      exact Nat.lt_succ_self _
  · intro c hc d hd hpos heq
    obtain hc | hc := List.mem_append.1 hc
    · obtain hd | hd := List.mem_append.1 hd
      · exact hp.fds c hc d hd hpos heq
      · rw [List.mem_singleton.1 hd] at heq
        obtain rfl | hfd := hfd
        · dsimp only at heq
          omega
        · exact absurd heq ((hfree hfd).2 c hc)
    · rw [List.mem_singleton] at hc
      subst hc
      obtain rfl | hfd := hfd
      · dsimp only at hpos
        omega
      · obtain hd | hd := List.mem_append.1 hd
        · exact absurd heq.symm ((hfree hfd).2 d hd)
        · exact (List.mem_singleton.1 hd).symm
  · intro c hc
    obtain hc | hc := List.mem_append.1 hc
    · exact hp.open_or c hc
    · rw [List.mem_singleton.1 hc]
      exact hfd.imp_right fun h => (hfree h).1

/-- An aimed step keeps the invariant, and with it routes its lines. -/
theorem step_inv {p q : Proxy} {e : Event} (hp : p.Inv) (haimed : Aimed p e)
    (h : step p e = some q) : q.Inv := by
  unfold step at h
  obtain ⟨-, h⟩ := Option.ite_none_right_eq_some.1 h
  cases e with
  | serverStarted fd =>
      obtain ⟨-, h⟩ := Option.ite_none_right_eq_some.1 h
      cases h
      exact hp.of_sublist (List.Sublist.refl _) rfl hp.routed
  | poll stale =>
      obtain ⟨-, h⟩ := Option.ite_none_left_eq_some.1 h
      cases h
      exact hp.of_sublist (List.Sublist.refl _) rfl hp.routed
  | quiet =>
      obtain ⟨fd, -, rfl⟩ := Option.map_eq_some_iff.1 h
      exact hp.of_sublist (List.Sublist.refl _) rfl hp.routed
  | hangup =>
      obtain ⟨fd, -, rfl⟩ := Option.map_eq_some_iff.1 h
      exact hp.of_sublist (cleanup_sublist _ _) rfl hp.routed
  | accept fd =>
      obtain ⟨⟨-, hfd⟩, h⟩ := Option.ite_none_right_eq_some.1 h
      cases h
      exact hp.accept hfd
  | readFailed =>
      obtain ⟨fd, -, rfl⟩ := Option.map_eq_some_iff.1 h
      exact hp.of_sublist (cleanup_sublist _ _) rfl hp.routed
  | command lines =>
      obtain ⟨c, hc, rfl⟩ := Option.map_eq_some_iff.1 h
      have hright := (command_right_iff hp hc lines).2 (haimed c hc)
      refine hp.of_sublist ?_ rfl (routed_record hp.routed hright)
      show ((execute c p.lookup p.connections lines).2.getD p.connections).Sublist p.connections
      cases hleft : (execute c p.lookup p.connections lines).2 with
      | none => exact List.Sublist.refl _
      | some left => exact execute_sublist hleft
  | line l =>
      have hhandled := onUnsolicited_null haimed p.connections
      simp only [hhandled] at h
      cases h
      refine hp.of_sublist (onUnsolicited_sublist hhandled) rfl (routed_record hp.routed ?_)
      intro d hd
      rw [List.mem_singleton.1 hd]
      rfl
  | exit =>
      cases h
      exact hp.of_sublist (List.nil_sublist _) rfl hp.routed

/-- A step that is not aimed leaves a line where it does not belong. -/
theorem step_not_routed {p q : Proxy} {e : Event} (hp : p.Inv) (haimed : ¬ Aimed p e)
    (h : step p e = some q) : ¬ Routed q := by
  unfold step at h
  obtain ⟨-, h⟩ := Option.ite_none_right_eq_some.1 h
  -- Only a command or an unsolicited line writes to clients; every other event is aimed.
  cases e with
  | command lines =>
      obtain ⟨c, hc, rfl⟩ := Option.map_eq_some_iff.1 h
      have hwrong : ¬ AllRight (execute c p.lookup p.connections lines) := by
        rw [command_right_iff hp hc]
        intro hcommand
        refine haimed fun d hd => ?_
        rw [hc] at hd
        rwa [← Option.some.inj hd]
      intro hrouted
      exact hwrong fun d hd => hrouted d (List.mem_append_right _ hd)
  | line l =>
      have hhandled := onUnsolicited_of_not_fits haimed .null p.connections
      simp only [hhandled] at h
      cases h
      intro hrouted
      have := hrouted _ (List.mem_append_right _ (List.mem_singleton_self _))
      cases this
  | serverStarted => exact absurd trivial haimed
  | poll => exact absurd trivial haimed
  | quiet => exact absurd trivial haimed
  | hangup => exact absurd trivial haimed
  | accept => exact absurd trivial haimed
  | readFailed => exact absurd trivial haimed
  | exit => exact absurd trivial haimed

theorem start_inv (devFd : ℤ) (pollfds : ℕ → ℤ) : (Proxy.start devFd pollfds).Inv where
  ids := List.nodup_nil
  ids_lt := fun c hc => by cases hc
  fds := fun c hc => by cases hc
  open_or := fun c hc => by cases hc
  routed := fun d hd => by cases hd

/-- Two clients connect, and the first one sends a command that is answered by `OK`. -/
def twoClients : List Event :=
  [.serverStarted 4, .poll fun _ => 0, .quiet, .accept 5, .poll fun _ => 0, .quiet, .accept 6,
    .quiet, .poll fun _ => 0, .quiet, .quiet, .command [⟨['O', 'K'], none, []⟩]]

end AtcProxy

/-
**The client whose command is executing.**

The proxy keeps its clients as nodes of an intrusive list, and `current_client_fd` points to one of
them while a command of that client executes.  A node is freed when a line cannot be written to its
client, and when the client hangs up; only the latter clears `current_client_fd`.

* `AtcProxy.Heap`, `AtcProxy.Heap.step` — the nodes in memory, and what happens to them;
* `AtcProxy.Heap.NoDangling` — the list is well formed, nothing was freed twice, and
  `current_client_fd` is `NULL` or in the list;
* `AtcProxy.Heap.noDangling_iff` — **a run keeps it exactly when no line is lost by the client it is
  for**;
* `AtcProxy.Heap.line_refines` — `onUnsolicited` on nodes is `onUnsolicited` on a list of
  connections.
-/
import OpenwrtPackage.AtcProxy.Routing
import OpenwrtPackage.Lib.Ring

set_option relaxedAutoImplicit false
set_option autoImplicit false

namespace AtcProxy

/-! ### The nodes -/

/-- The memory of the proxy; an address is a number. -/
structure Heap where
  /-- the `qnode` at each address -/
  links : Ring.Links ℕ
  clientFd : ℕ → ℤ
  /-- what `malloc` has given away and `free` has not taken back -/
  allocated : List ℕ
  /-- `current_client_fd` -/
  current : Option ℕ
  /-- `at_send_command` is at work for a client -/
  executing : Bool
  /-- something was freed that was not allocated -/
  freedTwice : Bool

/-- `&atc_proxy_connection` -/
def atcProxyConnection : ℕ := 0

namespace Heap

/-- The proxy as `atc_proxy_loop` starts, in a memory that holds anything. -/
def start (links : Ring.Links ℕ) (clientFd : ℕ → ℤ) : Heap where
  links := Ring.init links atcProxyConnection
  clientFd := clientFd
  allocated := []
  current := none
  executing := false
  freedTwice := false

/-- `qlist_remove(&atc_con->qnode); free(atc_con);` -/
def release (s : Heap) (a : ℕ) : Heap :=
  { s with
    links := Ring.remove s.links a
    allocated := s.allocated.erase a
    freedTwice := s.freedTwice || decide (a ∉ s.allocated) }

/-- The first node with this `ClientFd`, as `qlist_for_each` comes to it; no loop over the list
takes more turns than there are nodes. -/
def findFd (s : Heap) (fd : ℤ) : Option (Option ℕ) :=
  Ring.find s.links atcProxyConnection (fun a => s.clientFd a = fd) (s.allocated.length + 1)
    (s.links.next atcProxyConnection)

/-- `accept_atc_connection`, when `malloc` gives `a`. -/
def accept (s : Heap) (a : ℕ) (fd : ℤ) : Heap :=
  { s with
    links := Ring.addTail (Ring.init s.links a) atcProxyConnection a
    clientFd := Function.update s.clientFd a fd
    allocated := a :: s.allocated }

/-- `cleanup_atc_connection` -/
def cleanup (s : Heap) (fd : ℤ) : Option Heap :=
  (s.findFd fd).map fun
    | none => s
    | some a => { s.release a with current := if s.current = some a then none else s.current }

/-- `while (!qlist_empty(&atc_proxy_connection))` -/
def cleanupAll : ℕ → Heap → Option Heap
  | 0, _ => none
  | fuel + 1, s =>
      if s.links.next atcProxyConnection = atcProxyConnection then some s
      else (s.cleanup (s.clientFd (s.links.next atcProxyConnection))).bind (cleanupAll fuel)

/-- A client that is open for lines that go to everybody, and whose write fails. -/
def Lost (s : Heap) (failing : List ℕ) (a : ℕ) : Prop := 0 < s.clientFd a ∧ a ∈ failing

instance (s : Heap) (failing : List ℕ) (a : ℕ) : Decidable (s.Lost failing a) :=
  inferInstanceAs (Decidable (_ ∧ _))

/-- The loop of `onUnsolicited` over all clients, from the node `a` on; a write to a node of
`failing` fails. -/
def broadcast (failing : List ℕ) : ℕ → Heap → ℕ → Option Heap
  | 0, _, _ => none
  | fuel + 1, s, a =>
      if a = atcProxyConnection then some s
      else if s.Lost failing a then
        -- The loop goes on behind the node in front of the one that is freed.
        broadcast failing fuel (s.release a) ((s.release a).links.next (s.links.prev a))
      else broadcast failing fuel s (s.links.next a)

/-- `onUnsolicited`; a node that is used after it was freed is still what it was. -/
def onUnsolicited (s : Heap) (failing : List ℕ) : Option Heap :=
  match s.current with
  | some c => some (if c ∈ failing then s.release c else s)
  | none => broadcast failing (s.allocated.length + 1) s (s.links.next atcProxyConnection)

/-- What happens next. -/
inductive Event where
  /-- a client connects, and `malloc` gives an address or nothing -/
  | accept (a : Option ℕ) (fd : ℤ)
  /-- a client hung up, or cannot be read -/
  | cleanup (fd : ℤ)
  /-- a command was read; `key` is what stands at the place that the clients are compared with -/
  | command (key : ℤ)
  /-- the modem sends a line -/
  | line (failing : List ℕ)
  /-- `at_send_command` returns -/
  | answered
  /-- the loop ends, and is started again -/
  | exit

/-- One step; while a command executes, the loop waits for `at_send_command`. -/
def step (s : Heap) : Event → Option Heap
  | .accept a fd =>
      if s.executing then none
      else
        match a with
        | none => some s
        | some a =>
            if a = atcProxyConnection ∨ a ∈ s.allocated then none else some (s.accept a fd)
  | .cleanup fd => if s.executing then none else s.cleanup fd
  | .command key =>
      if s.executing then none
      else (s.findFd key).map fun found =>
        { s with current := found.or s.current, executing := true }
  | .line failing => s.onUnsolicited failing
  | .answered =>
      if s.executing then some { s with current := none, executing := false } else none
  | .exit =>
      if s.executing then none
      else (cleanupAll (s.allocated.length + 1) s).map fun t =>
        { t with links := Ring.init t.links atcProxyConnection }

/-! ### The law -/

/-- `current_client_fd` is `NULL` or a node of the list, the list is well formed and holds no freed
node, and no node was freed twice. -/
def NoDangling (s : Heap) : Prop :=
  ∃ xs, Ring.IsRing s.links atcProxyConnection xs ∧ (∀ a ∈ xs, a ∈ s.allocated) ∧
    (∀ c ∈ s.current, c ∈ xs) ∧ s.freedTwice = false

/-- The client whose command executes can be written to. -/
def WriteKept (s : Heap) : Event → Prop
  | .line failing => ∀ c ∈ s.current, c ∉ failing
  | _ => True

/-- The nodes of the list are the allocated ones. -/
structure Holds (s : Heap) (xs : List ℕ) : Prop where
  ring : Ring.IsRing s.links atcProxyConnection xs
  perm : xs.Perm s.allocated
  once : s.freedTwice = false

/-- What every step keeps. -/
structure Inv (s : Heap) : Prop where
  holds : ∃ xs, s.Holds xs
  current_mem : ∀ c ∈ s.current, c ∈ s.allocated
  executing_of_current : s.current.isSome → s.executing = true

/-! ### The operations -/

section Operations

variable {s : Heap} {xs ys zs : List ℕ} {a : ℕ}

theorem Holds.mem_iff (h : s.Holds xs) (a : ℕ) : a ∈ xs ↔ a ∈ s.allocated := h.perm.mem_iff

theorem start_holds (links : Ring.Links ℕ) (clientFd : ℕ → ℤ) :
    (start links clientFd).Holds [] where
  ring := Ring.isRing_init links atcProxyConnection
  perm := .refl _
  once := rfl

/-- Freeing a node of the list. -/
theorem release_holds (h : s.Holds (ys ++ a :: zs)) : (s.release a).Holds (ys ++ zs) := by
  obtain ⟨ha, hperm⟩ := List.cons_perm_iff_perm_erase.1 (List.perm_middle.symm.trans h.perm)
  refine ⟨Ring.isRing_remove h.ring, hperm, ?_⟩
  show (s.freedTwice || decide (a ∉ s.allocated)) = false
  rw [h.once, Bool.false_or, decide_eq_false_iff_not, not_not]
  exact ha

theorem accept_holds (h : s.Holds xs) (hhead : a ≠ atcProxyConnection) (ha : a ∉ s.allocated)
    (fd : ℤ) : (s.accept a fd).Holds (xs ++ [a]) := by
  have hnew : a ∉ atcProxyConnection :: xs := by
    rw [List.mem_cons, not_or]
    exact ⟨hhead, fun hmem => ha ((h.mem_iff a).1 hmem)⟩
  refine ⟨Ring.isRing_addTail (Ring.isRing_init_of_not_mem h.ring hnew) hnew, ?_, h.once⟩
  exact (List.perm_append_singleton a xs).trans (h.perm.cons a)

theorem findFd_eq (h : s.Holds xs) (fd : ℤ) :
    s.findFd fd = some (xs.find? fun a => s.clientFd a = fd) := by
  rw [findFd, h.ring.next_head]
  refine @Ring.find_eq _ _ _ _ _ [] xs h.ring _ ?_
  rw [h.perm.length_eq]
  exact Nat.lt_succ_self _

/-- The first node with the descriptor is freed, if there is one. -/
theorem cleanup_holds (h : s.Holds xs) (fd : ℤ) :
    ∃ t, s.cleanup fd = some t ∧ t.Holds (xs.eraseP fun a => s.clientFd a = fd) ∧
      t.clientFd = s.clientFd ∧ t.executing = s.executing ∧
      (s.current = none → t.current = none) := by
  rw [cleanup, findFd_eq h]
  cases hfind : xs.find? fun a => s.clientFd a = fd with
  | none =>
      have hnone := List.find?_eq_none.1 hfind
      refine ⟨s, rfl, ?_, rfl, rfl, id⟩
      rwa [List.eraseP_of_forall_not hnone]
  | some a =>
      obtain ⟨ha, ys, zs, rfl, hys⟩ := List.find?_eq_some_iff_append.1 hfind
      refine ⟨_, rfl, ?_, rfl, rfl, ?_⟩
      · have hys' : ∀ b ∈ ys, ¬ decide (s.clientFd b = fd) = true := by
          intro b hb
          simpa using hys b hb
        rw [List.eraseP_append_right _ hys',
          List.eraseP_cons_of_pos (p := fun b => s.clientFd b = fd) ha]
        have hfree := release_holds h
        exact ⟨hfree.ring, hfree.perm, hfree.once⟩
      · intro hcurrent
        show (if s.current = some a then none else s.current) = none
        rw [hcurrent]
        rfl

/-- At the end of the loop every node has been freed. -/
theorem cleanupAll_holds {fuel : ℕ} (h : s.Holds xs) (hcurrent : s.current = none)
    (hfuel : xs.length < fuel) :
    ∃ t, cleanupAll fuel s = some t ∧ t.Holds [] ∧ t.current = none ∧
      t.executing = s.executing := by
  induction xs generalizing s fuel with
  | nil =>
      obtain ⟨fuel, rfl⟩ := Nat.exists_eq_succ_of_ne_zero (Nat.ne_zero_of_lt hfuel)
      exact ⟨s, if_pos h.ring.next_head, h, hcurrent, rfl⟩
  | cons x xs ih =>
      obtain ⟨fuel, rfl⟩ := Nat.exists_eq_succ_of_ne_zero (Nat.ne_zero_of_lt hfuel)
      have hnext : s.links.next atcProxyConnection = x := h.ring.next_head
      have hx : x ≠ atcProxyConnection := @Ring.IsRing.item_ne_head _ _ _ _ [] xs h.ring
      obtain ⟨t, hclean, ht, -, hexecuting, hnone⟩ := cleanup_holds h (s.clientFd x)
      rw [List.eraseP_cons_of_pos (p := fun a => s.clientFd a = s.clientFd x)
        (decide_eq_true rfl)] at ht
      obtain ⟨u, hu, hempty, hucurrent, huexecuting⟩ :=
        ih ht (hnone hcurrent) (Nat.lt_of_succ_lt_succ hfuel)
      refine ⟨u, ?_, hempty, hucurrent, huexecuting.trans hexecuting⟩
      rw [cleanupAll, hnext, if_neg hx, hclean]
      exact hu

/-- The loop over all clients frees those that cannot be written to. -/
theorem broadcast_holds {failing : List ℕ} {fuel : ℕ} (h : s.Holds (ys ++ zs))
    (hfuel : zs.length < fuel) :
    ∃ t, broadcast failing fuel s (zs.headD atcProxyConnection) = some t ∧
      t.Holds (ys ++ zs.filter fun a => ¬ s.Lost failing a) ∧ t.clientFd = s.clientFd ∧
      t.current = s.current ∧ t.executing = s.executing := by
  induction zs generalizing s ys fuel with
  | nil =>
      obtain ⟨fuel, rfl⟩ := Nat.exists_eq_succ_of_ne_zero (Nat.ne_zero_of_lt hfuel)
      exact ⟨s, if_pos rfl, h, rfl, rfl, rfl⟩
  | cons z zs ih =>
      obtain ⟨fuel, rfl⟩ := Nat.exists_eq_succ_of_ne_zero (Nat.ne_zero_of_lt hfuel)
      have hlt := Nat.lt_of_succ_lt_succ hfuel
      rw [List.headD_cons, broadcast, if_neg h.ring.item_ne_head]
      by_cases hlost : s.Lost failing z
      · have hfree := release_holds h
        have hback : s.links.prev z = ys.getLastD atcProxyConnection :=
          h.ring.linked_of_append.2
        rw [if_pos hlost, hback, hfree.ring.linked_of_append.1,
          List.filter_cons_of_neg (by simpa using hlost)]
        exact ih hfree hlt
      · rw [if_neg hlost, h.ring.next_item, List.filter_cons_of_pos (by simpa using hlost),
          List.append_cons]
        rw [List.append_cons] at h
        exact ih h hlt

end Operations

/-! ### What every step keeps -/

section Law

variable {s t : Heap}

theorem start_inv (links : Ring.Links ℕ) (clientFd : ℕ → ℤ) : (start links clientFd).Inv where
  holds := ⟨[], start_holds links clientFd⟩
  current_mem := by rintro c ⟨⟩
  executing_of_current := by rintro ⟨⟩

theorem Inv.current_eq_none (h : s.Inv) (hidle : ¬ s.executing = true) : s.current = none := by
  rw [← Option.not_isSome_iff_eq_none]
  exact fun hsome => hidle (h.executing_of_current hsome)

/-- Without a current client there is nothing but the list to be kept. -/
theorem inv_of_holds {xs : List ℕ} (h : t.Holds xs) (hcurrent : t.current = none) : t.Inv where
  holds := ⟨xs, h⟩
  current_mem := by
    rw [hcurrent]
    rintro c ⟨⟩
  executing_of_current := by
    rw [hcurrent]
    rintro ⟨⟩

theorem Inv.noDangling (h : s.Inv) : s.NoDangling := by
  obtain ⟨xs, hxs⟩ := h.holds
  exact ⟨xs, hxs.ring, fun a ha => (hxs.mem_iff a).1 ha,
    fun c hc => (hxs.mem_iff c).2 (h.current_mem c hc), hxs.once⟩

/-- A line keeps the invariant, when it can be written to the client it is for. -/
theorem onUnsolicited_inv {failing : List ℕ} (h : s.Inv) (hkept : s.WriteKept (.line failing))
    (ht : s.onUnsolicited failing = some t) : t.Inv := by
  obtain ⟨xs, hxs⟩ := h.holds
  rw [onUnsolicited] at ht
  cases hcurrent : s.current with
  | some c =>
      rw [hcurrent] at ht
      have hc : c ∉ failing := hkept c hcurrent
      dsimp only at ht
      rw [if_neg hc] at ht
      cases ht
      exact h
  | none =>
      rw [hcurrent] at ht
      dsimp only at ht
      obtain ⟨u, hu, hholds, -, hnone, -⟩ := @broadcast_holds s [] xs failing
        (s.allocated.length + 1) hxs (Nat.lt_succ_of_le hxs.perm.length_eq.le)
      rw [hxs.ring.next_head, hu] at ht
      cases ht
      exact inv_of_holds hholds (hnone.trans hcurrent)

/-- A command makes the client that it comes from the current one. -/
theorem command_inv {key : ℤ} (h : s.Inv) (hidle : ¬ s.executing = true)
    (ht : (s.findFd key).map (fun found =>
      { s with current := found.or s.current, executing := true }) = some t) : t.Inv := by
  obtain ⟨xs, hxs⟩ := h.holds
  have hnone := h.current_eq_none hidle
  rw [findFd_eq hxs] at ht
  cases ht
  refine ⟨⟨xs, hxs.ring, hxs.perm, hxs.once⟩, ?_, fun _ => rfl⟩
  intro c hc
  have hfind : xs.find? (fun a => s.clientFd a = key) = some c := by
    have hc' : (xs.find? fun a => s.clientFd a = key).or s.current = some c := hc
    rwa [hnone, Option.or_none] at hc'
  exact (hxs.mem_iff c).1 (List.mem_of_find?_eq_some hfind)

/-- At the end the list is empty. -/
theorem exit_inv (h : s.Inv) (hidle : ¬ s.executing = true)
    (ht : (cleanupAll (s.allocated.length + 1) s).map (fun u =>
      { u with links := Ring.init u.links atcProxyConnection }) = some t) : t.Inv := by
  obtain ⟨xs, hxs⟩ := h.holds
  obtain ⟨u, hu, hholds, hnone, -⟩ := @cleanupAll_holds s xs (s.allocated.length + 1) hxs
    (h.current_eq_none hidle) (Nat.lt_succ_of_le hxs.perm.length_eq.le)
  rw [hu] at ht
  cases ht
  exact @inv_of_holds _ [] ⟨Ring.isRing_init _ _, hholds.perm, hholds.once⟩ hnone

/-- One step keeps the invariant. -/
theorem step_inv {e : Event} (h : s.Inv) (hkept : s.WriteKept e) (ht : s.step e = some t) :
    t.Inv := by
  obtain ⟨xs, hxs⟩ := h.holds
  cases e with
  | accept a fd =>
      obtain ⟨hidle, ht⟩ := Option.ite_none_left_eq_some.1 ht
      cases a with
      | none =>
          cases ht
          exact h
      | some a =>
          obtain ⟨hnew, ht⟩ := Option.ite_none_left_eq_some.1 ht
          cases ht
          rw [not_or] at hnew
          exact inv_of_holds (accept_holds hxs hnew.1 hnew.2 fd) (h.current_eq_none hidle)
  | cleanup fd =>
      obtain ⟨hidle, ht⟩ := Option.ite_none_left_eq_some.1 ht
      obtain ⟨u, hu, hholds, -, -, hnone⟩ := cleanup_holds hxs fd
      rw [hu] at ht
      cases ht
      exact inv_of_holds hholds (hnone (h.current_eq_none hidle))
  | command key =>
      obtain ⟨hidle, ht⟩ := Option.ite_none_left_eq_some.1 ht
      exact command_inv h hidle ht
  | line failing => exact onUnsolicited_inv h hkept ht
  | answered =>
      obtain ⟨-, ht⟩ := Option.ite_none_right_eq_some.1 ht
      cases ht
      exact inv_of_holds ⟨hxs.ring, hxs.perm, hxs.once⟩ rfl
  | exit =>
      obtain ⟨hidle, ht⟩ := Option.ite_none_left_eq_some.1 ht
      exact exit_inv h hidle ht

/-- What is current is allocated. -/
theorem NoDangling.current_mem (h : s.NoDangling) : ∀ c ∈ s.current, c ∈ s.allocated := by
  obtain ⟨xs, -, hallocated, hcurrent, -⟩ := h
  exact fun c hc => hallocated c (hcurrent c hc)

/-- A line that cannot be written to the client it is for leaves `current_client_fd` dangling. -/
theorem step_not_noDangling {e : Event} (h : s.Inv) (hlost : ¬ s.WriteKept e)
    (ht : s.step e = some t) : ¬ t.NoDangling := by
  intro hgood
  obtain ⟨xs, hxs⟩ := h.holds
  cases e with
  | line failing =>
      have hex : ∃ c, s.current = some c ∧ c ∈ failing := by
        by_contra hno
        exact hlost fun c hc hmem => hno ⟨c, hc, hmem⟩
      obtain ⟨c, hc, hmem⟩ := hex
      rw [step, onUnsolicited, hc] at ht
      dsimp only at ht
      rw [if_pos hmem] at ht
      cases ht
      have hstill : c ∈ s.allocated.erase c := hgood.current_mem c hc
      exact (hxs.perm.nodup_iff.1 (List.nodup_cons.1 hxs.ring.nodup).2).not_mem_erase hstill
  | accept a fd => exact hlost trivial
  | cleanup fd => exact hlost trivial
  | command key => exact hlost trivial
  | answered => exact hlost trivial
  | exit => exact hlost trivial

end Law

/-- A client connects and sends a command, and hangs up before it gets the line of the answer. -/
def lostAnswer : List Event := [.accept (some 1) 5, .command 5, .line [1]]

/-- With one more line for the same command, the node is freed again. -/
example : ((EventRun.states step (start ⟨fun _ => 0, fun _ => 0⟩ fun _ => 0)
    (lostAnswer ++ [.line [1]])).getLast?.map freedTwice) = some true := by decide +kernel

/-! ### The list of connections -/

/-- The nodes of the list as connections. -/
def connections (s : Heap) (xs : List ℕ) : List Connection := xs.map fun a => ⟨a, s.clientFd a⟩

/-- `current_client_fd`, when it is known which nodes are allocated. -/
def toCurrent (s : Heap) : Current :=
  match s.current with
  | none => .null
  | some c => if c ∈ s.allocated then .connection ⟨c, s.clientFd c⟩ else .freed

/-- Connections are left out by their nodes. -/
theorem filter_connections (s : Heap) (xs : List ℕ) (p : Connection → Bool) :
    (s.connections xs).filter p = s.connections (xs.filter fun a => p ⟨a, s.clientFd a⟩) :=
  List.filter_map

/-- Without the node itself its list is what is in front of it and behind it. -/
theorem filter_ne_of_nodup {ys zs : List ℕ} {c : ℕ} (h : (ys ++ c :: zs).Nodup) :
    (ys ++ c :: zs).filter (fun a => a ≠ c) = ys ++ zs := by
  obtain ⟨-, hback, hdisjoint⟩ := List.nodup_append.1 h
  have hys : ys.filter (fun a => a ≠ c) = ys := by
    rw [List.filter_eq_self]
    intro a ha
    exact decide_eq_true (hdisjoint a ha c (List.mem_cons_self ..))
  have hzs : zs.filter (fun a => a ≠ c) = zs := by
    rw [List.filter_eq_self]
    intro a ha
    refine decide_eq_true ?_
    rintro rfl
    exact (List.nodup_cons.1 hback).1 ha
  rw [List.filter_append, List.filter_cons_of_neg (by simp), hys, hzs]

/-- `onUnsolicited` does to the nodes what it does to the list of connections. -/
theorem line_refines {s : Heap} (h : s.Inv) {xs : List ℕ} (hxs : s.Holds xs) {l : Line}
    (hl : l.Fits) :
    ∃ t ys, s.onUnsolicited l.failing = some t ∧ t.Holds ys ∧
      (AtcProxy.onUnsolicited s.toCurrent (s.connections xs) l).map
        (fun r => (r.current, r.connections)) = some (t.toCurrent, t.connections ys) := by
  cases hcurrent : s.current with
  | some c =>
      have hc := h.current_mem c hcurrent
      obtain ⟨ys, zs, rfl⟩ := List.append_of_mem ((hxs.mem_iff c).2 hc)
      have hview : s.toCurrent = .connection ⟨c, s.clientFd c⟩ := by
        rw [toCurrent, hcurrent]
        exact if_pos hc
      rw [hview, onUnsolicited_connection hl, onUnsolicited, hcurrent]
      by_cases hlost : c ∈ l.failing
      · have hnodup := (List.nodup_cons.1 hxs.ring.nodup).2
        have hfreed : (s.release c).toCurrent = .freed := by
          have hgone : c ∉ (s.release c).allocated := (hxs.perm.nodup_iff.1 hnodup).not_mem_erase
          have hsame : (s.release c).current = some c := hcurrent
          rw [toCurrent, hsame]
          exact if_neg hgone
        refine ⟨s.release c, ys ++ zs, by simp [hlost], release_holds hxs, ?_⟩
        rw [if_pos hlost, Option.map_some, filter_connections, filter_ne_of_nodup hnodup, hfreed]
        rfl
      · refine ⟨s, ys ++ c :: zs, by simp [hlost], hxs, ?_⟩
        rw [if_neg hlost, hview]
        rfl
  | none =>
      have hview : s.toCurrent = .null := by
        rw [toCurrent, hcurrent]
      obtain ⟨t, ht, hholds, hfd, hnone, -⟩ := @broadcast_holds s [] xs l.failing
        (s.allocated.length + 1) hxs (Nat.lt_succ_of_le hxs.perm.length_eq.le)
      refine ⟨t, _, ?_, hholds, ?_⟩
      · rw [onUnsolicited, hcurrent, ← ht, hxs.ring.next_head]
      · have hnull : t.toCurrent = .null := by
          rw [toCurrent, hnone, hcurrent]
        have hopen : ∀ a, (¬ ((⟨a, s.clientFd a⟩ : Connection).isOpen = true ∧ a ∈ l.failing)) ↔
            ¬ s.Lost l.failing a := by
          intro a
          rw [Connection.isOpen, decide_eq_true_iff, Lost]
        rw [hview, onUnsolicited_null hl, Option.map_some, hnull]
        dsimp only
        rw [filter_connections]
        simp only [hopen, connections, hfd, List.nil_append]

end Heap

end AtcProxy

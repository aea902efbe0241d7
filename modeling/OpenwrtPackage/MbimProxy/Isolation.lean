/-
**What a client that goes away does to the others.**

When `poll` reports that a client is gone, its slot is freed and the loop goes on.  When it is
`read` that reports it, the slot is freed as well, but `proxy_loop` returns from there: `main` closes
the device, and nobody is served any more.

* `MbimProxy.World.Isolated` — one client's slot is freed, and nothing else has changed;
* `MbimProxy.World.isolated_iff` — **in every reachable state, the departure of a client is isolated
  exactly when `poll` reports it**;
* `MbimProxy.World.not_isolated` — the end of one client's stream ends the session of another;
* `MbimProxy.World.step_of_read` — after such a departure nothing happens any more.
-/
import OpenwrtPackage.MbimProxy.World

set_option relaxedAutoImplicit false
set_option autoImplicit false

namespace MbimProxy

/-- The client part of `pollfds`: the descriptors of the occupied slots. -/
def polledClients (p : Proxy) : List ℤ :=
  ((List.finRange cmMaxClient).map fun i => (p.cmClients i).clientFd).filter (0 < ·)

/-- Freeing the slots of a descriptor takes it from the positive descriptors. -/
theorem filter_pos_map_free {ι : Type*} (fdOf : ι → ℤ) (fd : ℤ) (l : List ι) :
    (l.map fun i => if fdOf i = fd then -1 else fdOf i).filter (0 < ·) =
      ((l.map fdOf).filter (0 < ·)).filter (· ≠ fd) := by
  induction l with
  | nil => rfl
  | cons i l ih =>
      rw [List.map_cons, List.map_cons]
      by_cases hfd : fdOf i = fd
      · rw [if_pos hfd, List.filter_cons_of_neg (by decide), ih]
        by_cases hpos : 0 < fdOf i
        · rw [List.filter_cons_of_pos (by simpa using hpos),
            List.filter_cons_of_neg (by simpa using hfd)]
        · rw [List.filter_cons_of_neg (by simpa using hpos)]
      · rw [if_neg hfd]
        by_cases hpos : 0 < fdOf i
        · rw [List.filter_cons_of_pos (by simpa using hpos),
            List.filter_cons_of_pos (by simpa using hpos),
            List.filter_cons_of_pos (by simpa using hfd), ih]
        · rw [List.filter_cons_of_neg (by simpa using hpos),
            List.filter_cons_of_neg (by simpa using hpos), ih]

namespace World

/-- From `w` to `w'` the client on `fd` has gone, and the others have not noticed. -/
structure Isolated (w w' : World) (fd : ℤ) : Prop where
  /-- the loop goes on -/
  running : w'.running = true
  /-- the device session is open as before -/
  devFd : w'.proxy.mbimDevFd = w.proxy.mbimDevFd
  /-- the server socket is open as before -/
  serverFd : w'.proxy.mbimServerFd = w.proxy.mbimServerFd
  /-- the slot of the client is freed, every other slot is as before -/
  slots : ∀ i, w'.proxy.cmClients i =
    if (w.proxy.cmClients i).clientFd = fd then { w.proxy.cmClients i with clientFd := -1 }
    else w.proxy.cmClients i
  /-- the descriptor of the client is closed, and no other -/
  sockets : w'.sockets = w.sockets.close fd
  /-- the other clients are polled -/
  polled : polledClients w'.proxy = (polledClients w.proxy).filter (· ≠ fd)
  /-- what the device has been asked is as before -/
  inFlight : w'.inFlight = w.inFlight

/-- `handle_client_disconnect` frees the slots with the descriptor, which is one slot. -/
theorem Served.disconnect_slots {w : World} (hs : w.Served) {fd : ℤ} (hfd : fd ∈ w.sockets.fds)
    (j : Fin cmMaxClient) : (handleClientDisconnect w.proxy.cmClients fd).1 j =
      if (w.proxy.cmClients j).clientFd = fd then { w.proxy.cmClients j with clientFd := -1 }
      else w.proxy.cmClients j := by
  obtain ⟨hpos, i, hi⟩ := (hs.linked fd).1 hfd
  rw [hs.handleClientDisconnect_eq hi hpos]
  by_cases hji : j = i
  · subst hji
    rw [if_pos hi]
    exact Function.update_self ..
  · have hne : (w.proxy.cmClients j).clientFd ≠ fd := fun hj =>
      hji (hs.slotUnique j i (hj ▸ hpos) (hj.trans hi.symm))
    rw [if_neg hne]
    exact Function.update_of_ne hji ..

theorem isolated_of_polled {w : World} (hs : w.Served) {fd : ℤ} (hfd : fd ∈ w.sockets.fds)
    (hrun : w.running = true) {how : Departure} (hp : how.Polled) :
    Isolated w (w.afterDepart fd how) fd := by
  have hslots := hs.disconnect_slots hfd
  have hclose : applyCloses w.sockets (handleClientDisconnect w.proxy.cmClients fd).2 =
      w.sockets.close fd := by
    obtain ⟨hpos, i, hi⟩ := (hs.linked fd).1 hfd
    rw [hs.handleClientDisconnect_eq hi hpos]
    rfl
  have hfds : ∀ i, ((handleClientDisconnect w.proxy.cmClients fd).1 i).clientFd =
      if (w.proxy.cmClients i).clientFd = fd then -1 else (w.proxy.cmClients i).clientFd := by
    intro i
    rw [hslots i]
    split <;> rfl
  simp only [afterDepart, hp, if_true]
  refine
    { running := hrun
      devFd := rfl
      serverFd := rfl
      slots := hslots
      sockets := hclose
      polled := ?_
      inFlight := rfl }
  simp only [polledClients, hfds]
  exact filter_pos_map_free (fun i => (w.proxy.cmClients i).clientFd) fd _

/-- **The departure of a client leaves the others alone exactly when `poll` reports it**, in every
reachable state and with any number of other clients. -/
theorem isolated_iff {devFd : {fd : ℤ // 0 < fd}} {evs : List Event} {w w' : World}
    (hw : w ∈ EventRun.states step (start devFd) evs) {fd : ℤ} {how : Departure}
    (h : w.step (.depart fd how) = some w') : Isolated w w' fd ↔ how.Polled := by
  obtain ⟨hrun, hfd, rfl⟩ := step_cases h
  have hs := served_of_mem_states hw hrun
  constructor
  · intro hi
    by_contra hp
    have hstopped : (w.afterDepart fd how).running = false := by simp [afterDepart, hp]
    rw [hi.running] at hstopped
    exact Bool.noConfusion hstopped
  · exact isolated_of_polled hs hfd hrun

/-- Two clients with one request each. -/
def twoClients : List Event :=
  [.openDone 0 4, .connect 5, .connect 6, .request 5 ⟨3, 12, 1, []⟩, .request 6 ⟨3, 12, 1, []⟩]

theorem isolated_twoClients :
    ∃ w ∈ EventRun.states step (start sampleDevFd) twoClients, ∃ w',
      w.sockets.fds = [5, 6] ∧ w.step (.depart 5 .pollHup) = some w' ∧ Isolated w w' 5 := by
  have hlast : ∃ w ∈ EventRun.states step (start sampleDevFd) twoClients,
      w.sockets.fds = [5, 6] ∧ (w.step (.depart 5 .pollHup)).isSome = true := by
    decide +kernel
  obtain ⟨w, hw, hfds, hsome⟩ := hlast
  obtain ⟨w', hw'⟩ := Option.isSome_iff_exists.1 hsome
  exact ⟨w, hw, w', hfds, hw', (isolated_iff hw hw').2 trivial⟩

/-- One client shuts down its side of the connection; the device session of the other is closed. -/
theorem not_isolated : ¬ ∀ (devFd : {fd : ℤ // 0 < fd}) (evs : List Event),
    ∀ w ∈ EventRun.states step (start devFd) evs, ∀ (w' : World) (fd : ℤ) (how : Departure),
      w.step (.depart fd how) = some w' → Isolated w w' fd := by
  intro hall
  have hlast : ∃ w ∈ EventRun.states step (start sampleDevFd) twoClients,
      (w.step (.depart 5 .readEof)).map (fun w' => (w'.running, w'.proxy.mbimDevFd)) =
        some (false, -1) := by
    decide +kernel
  obtain ⟨w, hw, hclosed⟩ := hlast
  obtain ⟨w', hw', hstate⟩ := Option.map_eq_some_iff.1 hclosed
  have hrun := (hall _ twoClients w hw w' 5 .readEof hw').running
  rw [hrun] at hstate
  simp at hstate

/-- After a departure that `read` has reported, the loop takes no further step. -/
theorem step_of_read {w w' : World} {fd : ℤ} {how : Departure} (hp : ¬ how.Polled)
    (h : w.step (.depart fd how) = some w') (e : Event) : w'.step e = none := by
  obtain ⟨-, -, rfl⟩ := step_cases h
  simp [step, afterDepart, hp]

end World

end MbimProxy
